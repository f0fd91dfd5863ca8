import Verathos.Contracts.MinerRegistry

/-!
# Duplicate entries in MinerRegistry

`registerModel` and `updateEndpoint` refuse a tuple `(modelId, endpoint, quant)` that another live
entry of the miner has. `renewModel` makes an entry live that may be inactive, and does not look at
the other entries: the tuple may have been given to another entry by `updateEndpoint` meanwhile.

`RenewalCondition` excludes this situation. In every run that avoids it a miner has no two live
entries with the same tuple (`entries_consistent`); that a miner has at most `MAX_MODELS_PER_MINER`
slots and is listed as a provider of the models of its entries holds in every run.
-/

namespace Verathos.Contracts.MinerRegistry

open Transition

variable {Hash : Type}

/-! ## The property and the condition -/

/-- The tuple that identifies an entry among the entries of a miner. -/
def key (m : MinerModel) : Bytes × Bytes × Bytes := (m.modelId, m.endpoint, m.quant)

/-- The entries of a miner at two different slots are not both live with the same tuple. -/
def NoDuplicateLive (s : MinerRegistry Hash) (now : ℕ) : Prop :=
  ∀ (miner : Address) (i j : ℕ) (m m' : MinerModel), i ≠ j →
    (s.minerModels miner)[i]? = some m → (s.minerModels miner)[j]? = some m' → m.Live now → m'.Live now → key m ≠ key m'

/-- The entries of the storage: live tuples are different, the slots are bounded, and miners are
listed as providers of their models. -/
structure EntriesConsistent (s : MinerRegistry Hash) (now : ℕ) : Prop where
  distinct : NoDuplicateLive s now
  bounded : ∀ miner, (s.minerModels miner).length ≤ maxModelsPerMiner
  provided : ∀ miner, ∀ m ∈ s.minerModels miner, miner ∈ s.modelProviders m.modelId

/-- An entry is renewed when no other live entry of the miner has its tuple. -/
def RenewalCondition (tx : Transaction Hash) (w : World Hash) : Prop :=
  match tx.call with
  | .renewModel index => ∀ m, (w.state.minerModels tx.msg.sender)[index]? = some m →
      m.expiresAt > tx.msg.timestamp → ∀ j m', j ≠ index →
      (w.state.minerModels tx.msg.sender)[j]? = some m' → m'.Live tx.msg.timestamp → key m' ≠ key m
  | _ => True

/-! ## Steps -/

section Steps

variable {s s' : MinerRegistry Hash} {now : ℕ}

theorem EntriesConsistent.of_le (h : EntriesConsistent s now) {later : ℕ} (hle : now ≤ later) :
    EntriesConsistent s later :=
  ⟨fun miner i j m m' hne hm hm' hlive hlive' =>
    h.distinct miner i j m m' hne hm hm' (hlive.of_le hle) (hlive'.of_le hle), h.bounded, h.provided⟩

variable {miner : Address} {index : ℕ}

/-- An entry replaced by one of the same model whose tuple no other live entry has, if it is live. -/
theorem EntriesConsistent.set (h : EntriesConsistent s now) {m new : MinerModel}
    (hm : (s.minerModels miner)[index]? = some m) (hmodel : new.modelId = m.modelId)
    (hfresh : new.Live now → ∀ j m', j ≠ index → (s.minerModels miner)[j]? = some m' →
      m'.Live now → key m' ≠ key new) :
    EntriesConsistent (s.setModels miner ((s.minerModels miner).set index new)) now := by
  refine ⟨fun a i j m₁ m₂ hne h₁ h₂ hlive₁ hlive₂ => ?_, fun a => ?_, fun a m₁ hm₁ => ?_⟩
  · rw [minerModels_setModels] at h₁ h₂
    split_ifs at h₁ h₂ with ha
    · rcases getElem?_set_cases h₁ with ⟨rfl, rfl⟩ | ⟨hi, hold₁⟩
      · rcases getElem?_set_cases h₂ with ⟨rfl, -⟩ | ⟨hj, hold₂⟩
        · exact absurd rfl hne
        · exact (hfresh hlive₁ j m₂ hj hold₂ hlive₂).symm
      · rcases getElem?_set_cases h₂ with ⟨rfl, rfl⟩ | ⟨-, hold₂⟩
        · exact hfresh hlive₂ i m₁ hi hold₁ hlive₁
        · exact h.distinct miner i j m₁ m₂ hne hold₁ hold₂ hlive₁ hlive₂
    · exact h.distinct a i j m₁ m₂ hne h₁ h₂ hlive₁ hlive₂
  · rw [minerModels_setModels]
    split_ifs
    · rw [List.length_set]
      exact h.bounded miner
    · exact h.bounded a
  · rw [minerModels_setModels] at hm₁
    split_ifs at hm₁ with ha
    · rw [ha]
      rcases mem_set_cases hm₁ with rfl | ⟨j, -, hj⟩
      · rw [hmodel]
        exact h.provided miner m (List.mem_of_getElem? hm)
      · exact h.provided miner m₁ (List.mem_of_getElem? hj)
    · exact h.provided a m₁ hm₁

theorem EntriesConsistent.setInactive (h : EntriesConsistent s now) {m : MinerModel}
    (hm : (s.minerModels miner)[index]? = some m) :
    EntriesConsistent
      (s.setModels miner ((s.minerModels miner).set index { m with active := false })) now :=
  h.set hm rfl fun hlive => absurd hlive.1 (by simp)

theorem EntriesConsistent.push (h : EntriesConsistent s now) {new : MinerModel}
    (hroom : (s.minerModels miner).length < maxModelsPerMiner)
    (hfresh : ∀ m' ∈ s.minerModels miner, m'.Live now → key m' ≠ key new) :
    EntriesConsistent { s.setModels miner (s.minerModels miner ++ [new]) with
      modelProviders := assign s.modelProviders new.modelId
        (s.modelProviders new.modelId ++ [miner]) } now := by
  have hmodels : ∀ a, { s.setModels miner (s.minerModels miner ++ [new]) with
      modelProviders := assign s.modelProviders new.modelId
        (s.modelProviders new.modelId ++ [miner]) }.minerModels a =
      if a = miner then s.minerModels miner ++ [new] else s.minerModels a :=
    minerModels_setModels s miner _
  refine ⟨fun a i j m₁ m₂ hne h₁ h₂ hlive₁ hlive₂ => ?_, fun a => ?_, fun a m₁ hm₁ => ?_⟩
  · rw [hmodels] at h₁ h₂
    split_ifs at h₁ h₂ with ha
    · rcases getElem?_push_cases h₁ with hold₁ | ⟨hi, rfl⟩
      · rcases getElem?_push_cases h₂ with hold₂ | ⟨-, rfl⟩
        · exact h.distinct _ i j m₁ m₂ hne hold₁ hold₂ hlive₁ hlive₂
        · exact hfresh m₁ (List.mem_of_getElem? hold₁) hlive₁
      · rcases getElem?_push_cases h₂ with hold₂ | ⟨hj, -⟩
        · exact (hfresh m₂ (List.mem_of_getElem? hold₂) hlive₂).symm
        · exact absurd (hi.trans hj.symm) hne
    · exact h.distinct a i j m₁ m₂ hne h₁ h₂ hlive₁ hlive₂
  · rw [hmodels]
    split_ifs
    · rw [List.length_append, List.length_singleton]
      exact hroom
    · exact h.bounded a
  · -- providers are only added
    have hkept : ∀ {b : Address}, b ∈ s.modelProviders m₁.modelId →
        b ∈ assign s.modelProviders new.modelId (s.modelProviders new.modelId ++ [miner])
          m₁.modelId := by
      intro b hb
      rw [assign_apply]
      split_ifs with hmodel
      · rw [← hmodel]
        exact List.mem_append_left _ hb
      · exact hb
    rw [hmodels] at hm₁
    split_ifs at hm₁ with ha
    · rw [ha]
      rcases List.mem_append.mp hm₁ with hold | hpushed
      · exact hkept (h.provided _ m₁ hold)
      · obtain rfl := List.mem_singleton.mp hpushed
        change miner ∈ assign s.modelProviders m₁.modelId _ m₁.modelId
        rw [assign_self]
        exact List.mem_append_right _ (List.mem_singleton_self _)
    · exact hkept (h.provided a m₁ hm₁)

variable [DecidableEq Hash] {keccak256 : Bytes → Hash} {env : Env Hash} {msg : Msg}

omit [DecidableEq Hash] in
theorem Matches.of_key {m m' : MinerModel} {modelId endpoint quant : Bytes} (hkey : key m' = key m)
    (h : Matches keccak256 m modelId endpoint quant) :
    Matches keccak256 m' modelId endpoint quant := by
  simp only [key, Prod.mk.injEq] at hkey
  rw [Matches, hkey.1, hkey.2.1, hkey.2.2]
  exact h

theorem EntriesConsistent.registerModel (h : EntriesConsistent s msg.timestamp)
    {modelId endpoint : Bytes} {modelSpecRef : Digest} {quant : Bytes} {maxContextLen : UInt32}
    (hok : s.registerModel keccak256 env msg modelId endpoint modelSpecRef quant maxContextLen =
      .ok s') : EntriesConsistent s' msg.timestamp := by
  obtain ⟨hfresh, -, expiresAt, ⟨index, m, -, hm, hmatches, rfl⟩ | ⟨-, hroom, rfl⟩⟩ :=
    registerModel_cases hok
  · set new : MinerModel := { m with modelSpecRef, maxContextLen, expiresAt, active := true }
    have hkeyNew : key new = key m := rfl
    have hset := h.set hm (show new.modelId = m.modelId from rfl)
      fun _ j m' _ hm' hlive hkey => hfresh m' (List.mem_of_getElem? hm')
        ⟨hlive, Matches.of_key (hkey.trans hkeyNew) hmatches⟩
    exact ⟨hset.distinct, hset.bounded, hset.provided⟩
  · set new : MinerModel :=
      ⟨modelId, endpoint, modelSpecRef, quant, maxContextLen, expiresAt, true⟩
    have hmatches : Matches keccak256 new modelId endpoint quant := ⟨rfl, rfl, rfl⟩
    have hpush := h.push hroom fun m' hm' hlive (hkey : key m' = key new) =>
      hfresh m' hm' ⟨hlive, Matches.of_key hkey hmatches⟩
    exact ⟨hpush.distinct, hpush.bounded, hpush.provided⟩

omit [DecidableEq Hash] in
theorem EntriesConsistent.renewModel (h : EntriesConsistent s msg.timestamp) {index : ℕ}
    (hcondition : ∀ m, (s.minerModels msg.sender)[index]? = some m →
      m.expiresAt > msg.timestamp → ∀ j m', j ≠ index →
      (s.minerModels msg.sender)[j]? = some m' → m'.Live msg.timestamp → key m' ≠ key m)
    (hok : s.renewModel env msg index = .ok s') : EntriesConsistent s' msg.timestamp := by
  obtain ⟨m, expiresAt, hm, hexpires, rfl⟩ := renewModel_eq_ok hok
  set new : MinerModel := { m with expiresAt, active := true }
  have hset := h.set hm (show new.modelId = m.modelId from rfl)
    fun _ j m' hj hm' hlive => hcondition m hm hexpires j m' hj hm' hlive
  exact ⟨hset.distinct, hset.bounded, hset.provided⟩

theorem EntriesConsistent.releaseEndpointFor (h : EntriesConsistent s now) (endpoint : Bytes)
    (miner : Address) : EntriesConsistent (releaseEndpointFor keccak256 s endpoint miner) now := by
  rw [releaseEndpointFor_eq]
  exact ⟨h.distinct, h.bounded, h.provided⟩

theorem EntriesConsistent.deactivateModel (h : EntriesConsistent s msg.timestamp)
    (hok : s.deactivateModel keccak256 env msg index = .ok s') :
    EntriesConsistent s' msg.timestamp := by
  obtain ⟨m, hm, rfl⟩ := deactivateModel_eq_ok hok
  have hset := h.setInactive hm
  rw [releaseEndpoint, releaseEndpointFor_eq]
  exact ⟨hset.distinct, hset.bounded, hset.provided⟩

theorem EntriesConsistent.updateEndpoint (h : EntriesConsistent s msg.timestamp)
    {newEndpoint : Bytes} (hok : s.updateEndpoint keccak256 env msg index newEndpoint = .ok s') :
    EntriesConsistent s' msg.timestamp := by
  obtain ⟨m, hm, hfresh, -, rfl⟩ := updateEndpoint_eq_ok hok
  set new : MinerModel := { m with endpoint := newEndpoint }
  have hset := h.set hm (show new.modelId = m.modelId from rfl)
    fun _ j m' hj hm' hlive hkey => hfresh j m' hj hm'
      ⟨hlive, Matches.of_key hkey (m := new) ⟨rfl, rfl, rfl⟩⟩
  rw [releaseEndpoint, releaseEndpointFor_eq]
  exact ⟨hset.distinct, hset.bounded, hset.provided⟩

omit [DecidableEq Hash] in
theorem EntriesConsistent.reportOffline (h : EntriesConsistent s msg.timestamp) {miner : Address}
    {modelIndex : ℕ} (hok : s.reportOffline env msg miner modelIndex = .ok s') :
    EntriesConsistent s' msg.timestamp := by
  obtain ⟨m, hm, -, rfl⟩ := reportOffline_eq_ok hok
  have hset := h.setInactive hm
  split_ifs
  · exact ⟨hset.distinct, hset.bounded, hset.provided⟩
  · exact ⟨h.distinct, h.bounded, h.provided⟩

theorem EntriesConsistent.cleanup (h : EntriesConsistent s msg.timestamp)
    (hok : s.cleanup keccak256 msg miner index = .ok s') : EntriesConsistent s' msg.timestamp := by
  obtain ⟨m, hm, -, rfl⟩ := cleanup_eq_ok hok
  have hindex : index < (s.minerModels miner).length := (List.getElem?_eq_some_iff.mp hm).1
  have hrelease : EntriesConsistent (MinerRegistry.releaseEndpointFor keccak256 s m.endpoint miner)
      msg.timestamp := h.releaseEndpointFor m.endpoint miner
  refine ⟨fun a i j m₁ m₂ hne h₁ h₂ hlive₁ hlive₂ => ?_, fun a => ?_, fun a m₁ hm₁ => ?_⟩
  · rw [minerModels_setModels] at h₁ h₂
    split_ifs at h₁ h₂ with ha
    · -- the two slots come from two different slots
      obtain ⟨i', -, hold₁, hi', hi⟩ := mem_of_swapPop hindex h₁
      obtain ⟨j', -, hold₂, hj', hj⟩ := mem_of_swapPop hindex h₂
      have hne' : i' ≠ j' := by
        rw [hi', hj']
        split_ifs <;> omega
      exact h.distinct miner i' j' m₁ m₂ hne' hold₁ hold₂ hlive₁ hlive₂
    · exact hrelease.distinct a i j m₁ m₂ hne h₁ h₂ hlive₁ hlive₂
  · rw [minerModels_setModels]
    split_ifs
    · rw [length_swapPop hindex]
      exact (Nat.sub_le _ _).trans (h.bounded miner)
    · exact hrelease.bounded a
  · rw [minerModels_setModels] at hm₁
    split_ifs at hm₁ with ha
    · obtain ⟨j, hj⟩ := List.mem_iff_getElem?.mp hm₁
      obtain ⟨i, -, hold, -⟩ := mem_of_swapPop hindex hj
      have hmem : m₁ ∈ (MinerRegistry.releaseEndpointFor keccak256 s m.endpoint miner).minerModels
          miner := by
        rw [minerModels_releaseEndpointFor]
        exact List.mem_of_getElem? hold
      rw [ha]
      exact hrelease.provided miner m₁ hmem
    · exact hrelease.provided a m₁ hm₁

variable {this : Address} {netuid : UInt16} {tx : Transaction Hash}

theorem EntriesConsistent.step {w w' : World Hash} (h : EntriesConsistent w.state w.now)
    (hcondition : RenewalCondition tx w) (hstep : step keccak256 this netuid tx w = some w') :
    EntriesConsistent w'.state w'.now := by
  obtain ⟨hle, hnow, hok | hsame⟩ := step_cases keccak256 this netuid hstep
  · have hthen := h.of_le hle
    rw [hnow]
    rcases tx with ⟨env, msg, call⟩
    cases call with
    | registerEvm uid sigR sigS =>
      simp only [execute, bind_eq_ok, pure_eq_ok] at hok
      obtain ⟨binding, -, hok⟩ := hok
      rw [← hok]
      exact ⟨hthen.distinct, hthen.bounded, hthen.provided⟩
    | resetEvmRegistration uid =>
      simp only [execute, bind_eq_ok, pure_eq_ok] at hok
      obtain ⟨binding, -, hok⟩ := hok
      rw [← hok]
      exact ⟨hthen.distinct, hthen.bounded, hthen.provided⟩
    | registerModel modelId endpoint modelSpecRef quant maxContextLen =>
      exact hthen.registerModel hok
    | renewModel index => exact hthen.renewModel hcondition hok
    | deactivateModel index => exact hthen.deactivateModel hok
    | updateEndpoint index newEndpoint => exact hthen.updateEndpoint hok
    | reportOffline miner modelIndex => exact hthen.reportOffline hok
    | cleanup miner index => exact hthen.cleanup hok
  · rw [hsame, hnow]
    exact h.of_le hle

end Steps

/-! ## Runs -/

/-- In every run that renews an entry only while no other live entry of the miner has its tuple, no
miner has two live entries with the same tuple, miners have at most `MAX_MODELS_PER_MINER` slots, and
they are listed as providers of the models of their entries. -/
theorem entries_consistent [DecidableEq Hash] {keccak256 : Bytes → Hash} {this : Address}
    {netuid : UInt16} {start : ℕ} {w : World Hash}
    (hreach : Reachable (step keccak256 this netuid) RenewalCondition (deployed start) w) :
    ∀ now ≥ w.now, EntriesConsistent w.state now := by
  have hinvariant : EntriesConsistent w.state w.now := by
    refine hreach.invariant (I := fun w => EntriesConsistent w.state w.now)
      ⟨fun _ _ _ _ _ _ hm => ?_, fun _ => Nat.zero_le _, fun _ _ hm => absurd hm List.not_mem_nil⟩
      fun _ _ _ h hcondition hstep => h.step hcondition hstep
    exact absurd hm (by simp [deployed, empty])
  intro now hnow
  exact hinvariant.of_le hnow

/-- Miner 1 registers a model at two endpoints, deactivates the first entry, moves the second entry
to the endpoint of the first, and renews the first. -/
def duplicateRun : List (Transaction Bytes) :=
  [registration 1 sender_one,
    callAtZero 1 sender_one (.registerModel [109] [102] Digest.zero [113] 8),
    callAtZero 1 sender_one (.deactivateModel 0),
    callAtZero 1 sender_one (.updateEndpoint 1 [101]),
    callAtZero 1 sender_one (.renewModel 0)]

/-- After the run both entries of the miner are live and have the same tuple. -/
theorem entries_duplicated :
    ∃ w : World Bytes, Reachable (step id 0 0) always (deployed 0) w ∧
      ¬ EntriesConsistent w.state w.now := by
  have hsome : (run (step id 0 0) duplicateRun (deployed 0)).isSome := by decide +kernel
  obtain ⟨w, hw⟩ := Option.isSome_iff_exists.mp hsome
  refine ⟨w, reachable_of_run hw, fun hconsistent => ?_⟩
  have hentries : (run (step id 0 0) duplicateRun (deployed 0)).map (fun w : World Bytes =>
      (w.now, w.state.minerModels 1)) =
      some (0, [⟨[109], [101], Digest.zero, [113], 8, 86400, true⟩,
        ⟨[109], [101], Digest.zero, [113], 8, 86400, true⟩]) := by decide +kernel
  rw [hw, Option.map_some, Option.some.injEq, Prod.mk.injEq] at hentries
  obtain ⟨hnow, hmodels⟩ := hentries
  refine hconsistent.distinct 1 0 1 _ _ (by decide) (by rw [hmodels]; rfl) (by rw [hmodels]; rfl)
    ?_ ?_ rfl
  · rw [hnow]
    decide
  · rw [hnow]
    decide

/-- The theorem on a registration and its renewal. -/
theorem entries_consistent_renewed :
    ∃ w : World Bytes, run (step id 0 0)
      [registration 1 sender_one, callAtZero 1 sender_one (.renewModel 0)] (deployed 0) = some w ∧
      EntriesConsistent w.state w.now := by
  have hsome : (step id 0 0 (registration 1 sender_one) (deployed 0)).isSome := by decide +kernel
  obtain ⟨w, hw⟩ := Option.isSome_iff_exists.mp hsome
  have hmodels : (step id 0 0 (registration 1 sender_one) (deployed 0)).map
      (fun w : World Bytes => (w.state.minerModels 1).length) = some 1 := by decide +kernel
  rw [hw, Option.map_some, Option.some.injEq] at hmodels
  have hsome' : (run (step id 0 0)
      [registration 1 sender_one, callAtZero 1 sender_one (.renewModel 0)]
      (deployed 0)).isSome := by decide +kernel
  obtain ⟨w', hw'⟩ := Option.isSome_iff_exists.mp hsome'
  have hstep : step id 0 0 (callAtZero 1 sender_one (.renewModel 0)) w = some w' := by
    rw [run, hw] at hw'
    simpa [run] using hw'
  have hfirst : RenewalCondition (registration 1 sender_one) (deployed 0) := by
    simp [RenewalCondition, registration, callAtZero]
  -- the only entry is the renewed one
  have hsecond : RenewalCondition (callAtZero 1 sender_one (.renewModel 0)) w := by
    intro m hm _ j m' hj hm'
    have hlt : j < (w.state.minerModels 1).length := (List.getElem?_eq_some_iff.mp hm').1
    omega
  exact ⟨w', hw', entries_consistent (.step (.step .refl hfirst hw) hsecond hstep) _ le_rfl⟩

end Verathos.Contracts.MinerRegistry
