import Verathos.Contracts.MinerRegistry
import Verathos.Contracts.ValidatorConsistency

/-!
# Paged views

The views of `MinerRegistry.sol` and `ValidatorRegistry.sol` that return a stored list page by page.

- Three of them take an index range. They share a body (`page`), which returns the slice of the range
  unless `offset + limit` leaves the range of a `uint256` (`page_eq_ok_iff`). The views of
  `MinerRegistry` cap the limit first and `getValidatorsPaged` does not.
- `getActiveMinerModelsPaged` scans from a raw cursor for live entries. A client that follows the
  cursor sees every live entry once, whatever its limits are (`followCursor_seen`).
-/

namespace Verathos.Contracts

def maxPageLimit : ℕ := 256

def pageLimit (limit : ℕ) : ℕ := if limit > maxPageLimit then maxPageLimit else limit

theorem pageLimit_eq (limit : ℕ) : pageLimit limit = min limit maxPageLimit := by
  unfold pageLimit
  split_ifs <;> omega

/-- Checked `uint256` addition. -/
def checkedAdd256 (a b : ℕ) : Tx ℕ := do
  require (a + b < 2 ^ 256) "Panic(0x11)"
  return a + b

/-- An array read, which panics out of bounds. -/
def readAt {α : Type} (items : List α) (index : ℕ) : Tx α :=
  match items[index]? with
  | some item => .ok item
  | none => .error "Panic(0x32)"

/-- The body that the views by index range share. -/
def page {α : Type} (items : List α) (offset limit : ℕ) : Tx (List α) := do
  let total := items.length
  if offset ≥ total ∨ limit = 0 then
    return []
  let stop ← checkedAdd256 offset limit
  let stop := if stop > total then total else stop
  let count := stop - offset
  (List.range count).mapM fun i => readAt items (offset + i)

/-- The entries of a list at `offset, …, offset + limit - 1`. -/
def slice {α : Type} (items : List α) (offset limit : ℕ) : List α := (items.drop offset).take limit

/-- The range is empty or its end is a `uint256`. -/
def NoOverflow (total offset limit : ℕ) : Prop :=
  offset ≥ total ∨ limit = 0 ∨ offset + limit < 2 ^ 256

/-! ## Views by index range -/

section Views

variable {Hash : Type}

def MinerRegistry.getMinerModelsPaged (s : MinerRegistry Hash) (miner : Address)
    (offset limit : ℕ) : Tx (List MinerModel) :=
  page (s.minerModels miner) offset (pageLimit limit)

def MinerRegistry.getProvidersForModelPaged (s : MinerRegistry Hash) (modelId : Bytes)
    (offset limit : ℕ) : Tx (List Address) :=
  page (s.modelProviders modelId) offset (pageLimit limit)

/-- `getValidatorsPaged`. The limit has no cap. -/
def ValidatorRegistry.getValidatorsPaged (s : ValidatorRegistry) (offset limit : ℕ) :
    Tx (List (Address × ValidatorInfo)) := do
  let addrs ← page s.validatorList offset limit
  return addrs.map fun addr => (addr, s.validators addr)

end Views

section Page

variable {α : Type} {items : List α} {offset limit : ℕ}

theorem slice_eq_nil (h : offset ≥ items.length ∨ limit = 0) : slice items offset limit = [] := by
  rcases h with h | rfl
  · rw [slice, List.drop_eq_nil_of_le h, List.take_nil]
  · exact List.take_zero

theorem mapM_readAt {count : ℕ} (h : offset + count ≤ items.length) :
    ((List.range count).mapM fun i => readAt items (offset + i)) =
      .ok (slice items offset count) := by
  rw [mapM_eq_ok, List.forall₂_iff_get]
  have hlength : (slice items offset count).length = count := by
    rw [slice, List.length_take, List.length_drop]
    omega
  refine ⟨by rw [List.length_range, hlength], fun i hi hi' => ?_⟩
  have hbound : offset + i < items.length := by
    rw [List.length_range] at hi
    omega
  simp [readAt, slice, List.getElem?_eq_getElem hbound]

theorem page_eq_ok_iff :
    page items offset limit = .ok (slice items offset limit) ↔
      NoOverflow items.length offset limit := by
  unfold page NoOverflow
  by_cases hempty : offset ≥ items.length ∨ limit = 0
  · simp only [if_pos hempty, slice_eq_nil hempty]
    exact ⟨fun _ => hempty.imp_right .inl, fun _ => rfl⟩
  · rw [← or_assoc, or_iff_right hempty]
    simp only [if_neg hempty, checkedAdd256, bind_eq_ok, require_eq_ok, pure_eq_ok]
    constructor
    · rintro ⟨_, ⟨_, hfits, rfl⟩, _⟩
      exact hfits
    · intro hfits
      refine ⟨_, ⟨(), hfits, rfl⟩, ?_⟩
      push Not at hempty
      -- The end is cut back to the length, which drops nothing from the slice.
      have hslice : slice items offset limit =
          slice items offset ((if offset + limit > items.length then items.length
            else offset + limit) - offset) := by
        rw [slice, slice, List.take_eq_take_iff, List.length_drop]
        split_ifs <;> omega
      rw [hslice]
      exact mapM_readAt (by split_ifs <;> omega)

theorem page_of_overflow (h : ¬ NoOverflow items.length offset limit) :
    page items offset limit = .error "Panic(0x11)" := by
  obtain ⟨hoffset, hlimit, hfits⟩ :
      offset < items.length ∧ limit ≠ 0 ∧ ¬ offset + limit < 2 ^ 256 := by
    simpa [NoOverflow] using h
  unfold page
  rw [if_neg (by omega), checkedAdd256, require, if_neg hfits]
  rfl

theorem slice_min_eq_iff {cap : ℕ} :
    slice items offset limit = slice items offset (min limit cap) ↔
      min limit (items.length - offset) ≤ cap := by
  rw [slice, slice, List.take_eq_take_iff, List.length_drop]
  omega

end Page

/-! ## The scan for live entries -/

/-- A page of live entries, with their indexes and the cursor to continue from. -/
structure ActivePage where
  nextCursor : ℕ
  indexes : List ℕ
  models : List MinerModel

/-- The loop of `getActiveMinerModelsPaged`, from index `i` with the entries found so far. The
increment does not overflow, since `i` is less than an array length. -/
def activeLoop (entries : List MinerModel) (now limit i : ℕ) (found : List (ℕ × MinerModel)) :
    ℕ × List (ℕ × MinerModel) :=
  if h : i < entries.length ∧ found.length < limit then
    let m := entries.get ⟨i, h.1⟩
    activeLoop entries now limit (i + 1) (if m.Live now then found ++ [(i, m)] else found)
  else (i, found)
termination_by entries.length - i

def MinerRegistry.getActiveMinerModelsPaged {Hash : Type} (s : MinerRegistry Hash) (now : ℕ)
    (miner : Address) (cursor limit : ℕ) : ActivePage :=
  let limit := pageLimit limit
  let total := (s.minerModels miner).length
  if cursor ≥ total ∨ limit = 0 then ⟨total, [], []⟩
  else
    let (i, found) := activeLoop (s.minerModels miner) now limit cursor []
    ⟨i, found.map Prod.fst, found.map Prod.snd⟩

/-- The entry at an index with its index, if it is live at the time given for the index. -/
def liveAt (entries : List MinerModel) (now : ℕ → ℕ) (i : ℕ) : Option (ℕ × MinerModel) :=
  match entries[i]? with
  | some m => if m.Live (now i) then some (i, m) else none
  | none => none

/-- The live entries from `start` up to `stop`. -/
def liveBetween (entries : List MinerModel) (now : ℕ → ℕ) (start stop : ℕ) :
    List (ℕ × MinerModel) :=
  (List.range' start (stop - start)).filterMap (liveAt entries now)

section Scan

variable {entries : List MinerModel} {now : ℕ → ℕ} {a b c : ℕ}

theorem liveBetween_self : liveBetween entries now a a = [] := by
  rw [liveBetween, Nat.sub_self]
  rfl

theorem liveBetween_append (hab : a ≤ b) (hbc : b ≤ c) :
    liveBetween entries now a b ++ liveBetween entries now b c = liveBetween entries now a c := by
  rw [liveBetween, liveBetween, liveBetween, ← List.filterMap_append]
  have hrange := List.range'_append_1 (s := a) (m := b - a) (n := c - b)
  rw [Nat.add_sub_cancel' hab] at hrange
  rw [hrange, show b - a + (c - b) = c - a by omega]

theorem liveBetween_succ : liveBetween entries now a (a + 1) = (liveAt entries now a).toList := by
  rw [liveBetween, Nat.add_sub_cancel_left, List.range'_one]
  cases h : liveAt entries now a <;> simp [h]

theorem liveBetween_congr {now' : ℕ → ℕ} (h : ∀ i, a ≤ i → i < b → now i = now' i) :
    liveBetween entries now a b = liveBetween entries now' a b := by
  refine List.filterMap_congr fun i hi => ?_
  obtain ⟨hle, hlt⟩ := List.mem_range'_1.mp hi
  rw [liveAt, liveAt, h i hle (by omega)]

/-- The loop finds the live entries that it passes, in order. It stops at the end of the list or
after enough of them, and does not stop before it has passed an entry. -/
theorem activeLoop_spec (time limit : ℕ) {i : ℕ} (found : List (ℕ × MinerModel))
    (hi : i ≤ entries.length) :
    ∃ j, i ≤ j ∧ j ≤ entries.length ∧
      activeLoop entries time limit i found = (j, found ++ liveBetween entries (fun _ => time) i j) ∧
      (i < entries.length → found.length < limit → i < j) := by
  fun_induction activeLoop with
  | case1 i found h m ih =>
    obtain ⟨j, hij, hj, heq, -⟩ := ih h.1
    refine ⟨j, by omega, hj, ?_, fun _ _ => hij⟩
    simp only [dite_eq_ite] at heq
    rw [heq, ← liveBetween_append (Nat.le_succ i) hij, liveBetween_succ, ← List.append_assoc]
    congr 2
    rw [liveAt, List.getElem?_eq_getElem h.1]
    show (if m.Live time then found ++ [(i, m)] else found) =
      found ++ (if m.Live time then some (i, m) else none).toList
    split_ifs <;> simp
  | case2 i found h =>
    refine ⟨i, le_rfl, hi, ?_, fun hlt hroom => absurd ⟨hlt, hroom⟩ h⟩
    rw [liveBetween_self, List.append_nil]

end Scan

/-! ## Following the cursor -/

section Client

variable {Hash : Type} (s : MinerRegistry Hash) (miner : Address) (now limit : ℕ → ℕ)

/-- A client after `k` calls: its cursor, and the entries it has seen. Call `k` is made at time
`now k` with limit `limit k`. -/
def followCursor : ℕ → ℕ × List (ℕ × MinerModel)
  | 0 => (0, [])
  | k + 1 =>
    let (cursor, seen) := followCursor k
    let answer := s.getActiveMinerModelsPaged (now k) miner cursor (limit k)
    (answer.nextCursor, seen ++ answer.indexes.zip answer.models)

variable {s miner now limit}

/-- One call from a cursor in the list returns the live entries up to the next cursor, which is
further on unless the cursor was at the end. -/
theorem getActiveMinerModelsPaged_spec (time : ℕ) {cursor limit : ℕ} (hlimit : 0 < limit)
    (hcursor : cursor ≤ (s.minerModels miner).length) :
    ∃ j, cursor ≤ j ∧ j ≤ (s.minerModels miner).length ∧
      (cursor < (s.minerModels miner).length → cursor < j) ∧
      (s.getActiveMinerModelsPaged time miner cursor limit).nextCursor = j ∧
      (s.getActiveMinerModelsPaged time miner cursor limit).indexes.zip
          (s.getActiveMinerModelsPaged time miner cursor limit).models =
        liveBetween (s.minerModels miner) (fun _ => time) cursor j := by
  have hcap : 0 < pageLimit limit := by
    rw [pageLimit_eq]
    exact lt_min hlimit (by decide)
  unfold MinerRegistry.getActiveMinerModelsPaged
  rcases hcursor.lt_or_eq with hlt | heq
  · obtain ⟨j, hle, hj, hloop, hmoves⟩ := activeLoop_spec time (pageLimit limit) [] hcursor
    refine ⟨j, hle, hj, fun _ => hmoves hlt hcap, ?_⟩
    have hstart : ¬ (cursor ≥ (s.minerModels miner).length ∨ pageLimit limit = 0) := by omega
    simp only [if_neg hstart, hloop, List.nil_append]
    exact ⟨trivial, by simpa [List.unzip_eq_map] using List.zip_unzip _⟩
  · refine ⟨cursor, le_rfl, hcursor, fun h => absurd heq h.ne, ?_⟩
    have hstop : cursor ≥ (s.minerModels miner).length ∨ pageLimit limit = 0 := .inl heq.ge
    simp only [if_pos hstop]
    exact ⟨heq.symm, by rw [liveBetween_self]; rfl⟩

variable (s miner now) in
theorem followCursor_cursor (hlimit : ∀ k, 0 < limit k) (k : ℕ) :
    min k (s.minerModels miner).length ≤ (followCursor s miner now limit k).1 ∧
      (followCursor s miner now limit k).1 ≤ (s.minerModels miner).length := by
  induction k with
  | zero => simp [followCursor]
  | succ k ih =>
    obtain ⟨j, hle, hj, hmoves, hnext, -⟩ :=
      getActiveMinerModelsPaged_spec (now k) (hlimit k) ih.2
    have hcursor : (followCursor s miner now limit (k + 1)).1 = j := hnext
    rw [hcursor]
    refine ⟨?_, hj⟩
    by_cases hend : (followCursor s miner now limit k).1 < (s.minerModels miner).length
    · have := hmoves hend
      omega
    · omega

variable (s miner now limit) in
/-- Call `k` of the client passes index `i`. -/
def Passes (k i : ℕ) : Prop :=
  (followCursor s miner now limit k).1 ≤ i ∧ i < (followCursor s miner now limit (k + 1)).1

variable (s miner now) in
theorem followCursor_seen (hlimit : ∀ k, 0 < limit k) (k : ℕ) :
    ∃ callOf : ℕ → ℕ,
      (∀ i < (followCursor s miner now limit k).1,
        callOf i < k ∧ Passes s miner now limit (callOf i) i) ∧
      (followCursor s miner now limit k).2 = liveBetween (s.minerModels miner)
        (fun i => now (callOf i)) 0 (followCursor s miner now limit k).1 := by
  induction k with
  | zero => exact ⟨fun _ => 0, fun i hi => absurd hi (Nat.not_lt_zero i), liveBetween_self.symm⟩
  | succ k ih =>
    obtain ⟨callOf, hcalls, hseen⟩ := ih
    obtain ⟨j, hle, -, -, hnext, hpage⟩ := getActiveMinerModelsPaged_spec (now k) (hlimit k)
      (followCursor_cursor s miner now hlimit k).2
    have hcursor : (followCursor s miner now limit (k + 1)).1 = j := hnext
    have hentries : (followCursor s miner now limit (k + 1)).2 =
        (followCursor s miner now limit k).2 ++ _ := congrArg _ hpage
    -- The indexes that call `k` passes are those from the old cursor on.
    refine ⟨fun i => if i < (followCursor s miner now limit k).1 then callOf i else k, ?_, ?_⟩
    · intro i hnew
      dsimp only
      split_ifs with hi
      · exact ⟨(hcalls i hi).1.trans (Nat.lt_succ_self k), (hcalls i hi).2⟩
      · exact ⟨Nat.lt_succ_self k, not_lt.mp hi, hnew⟩
    · rw [hentries, hcursor, hseen, ← liveBetween_append (Nat.zero_le _) hle]
      congr 1
      · exact liveBetween_congr fun i _ hi => congrArg now (if_pos hi).symm
      · exact liveBetween_congr fun i hi _ => congrArg now (if_neg (by omega)).symm

variable (s miner now) in
/-- The client reaches the end after finitely many calls, for the first time after `n` of them. -/
theorem exists_followCursor_end (hlimit : ∀ k, 0 < limit k) :
    ∃ n, 0 < n ∧ n ≤ max 1 (s.minerModels miner).length ∧
      (followCursor s miner now limit n).1 = (s.minerModels miner).length ∧
      ∀ k, 0 < k → k < n → (followCursor s miner now limit k).1 ≠ (s.minerModels miner).length := by
  have hend : ∃ n, 0 < n ∧
      (followCursor s miner now limit n).1 = (s.minerModels miner).length := by
    refine ⟨max 1 (s.minerModels miner).length, by omega, ?_⟩
    obtain ⟨hmoved, hle⟩ := followCursor_cursor s miner now hlimit (max 1 (s.minerModels miner).length)
    exact le_antisymm hle (by rwa [min_eq_right (le_max_right _ _)] at hmoved)
  refine ⟨Nat.find hend, (Nat.find_spec hend).1, Nat.find_min' hend ⟨by omega, ?_⟩,
    (Nat.find_spec hend).2, fun k hpos hk heq => Nat.find_min hend hk ⟨hpos, heq⟩⟩
  obtain ⟨hmoved, hle⟩ := followCursor_cursor s miner now hlimit (max 1 (s.minerModels miner).length)
  exact le_antisymm hle (by rwa [min_eq_right (le_max_right _ _)] at hmoved)

end Client

/-! ## Exactness -/

theorem getValidatorsPaged_eq_ok_iff {v : ValidatorRegistry} {offset limit : ℕ}
    {addrs : List Address} :
    v.getValidatorsPaged offset limit = .ok (addrs.map fun addr => (addr, v.validators addr)) ↔
      page v.validatorList offset limit = .ok addrs := by
  have hinjective : Function.Injective fun addr : Address => (addr, v.validators addr) :=
    fun _ _ h => (Prod.mk.inj h).1
  simp only [ValidatorRegistry.getValidatorsPaged, bind_eq_ok, pure_eq_ok,
    (List.map_injective_iff.mpr hinjective).eq_iff]
  constructor
  · rintro ⟨_, h, rfl⟩
    exact h
  · exact fun h => ⟨addrs, h, rfl⟩

theorem page_eq_ok_min_iff {α : Type} {items : List α} {offset limit cap : ℕ} :
    page items offset limit = .ok (slice items offset (min limit cap)) ↔
      NoOverflow items.length offset limit ∧ min limit (items.length - offset) ≤ cap := by
  by_cases hfits : NoOverflow items.length offset limit
  · rw [page_eq_ok_iff.mpr hfits, Except.ok.injEq, slice_min_eq_iff, and_iff_right hfits]
  · rw [page_of_overflow hfits]
    simp [hfits]

/-- The views by index range return the slice of their range exactly when its end does not overflow.
The range of the two views of `MinerRegistry` is capped; that of `getValidatorsPaged` is not, and it
agrees with a capped one exactly when the cap cuts nothing off. A client that follows the cursor of
`getActiveMinerModelsPaged` with positive limits is done after finitely many calls, and it has then
seen the live entries once each, in index order and with their indexes. -/
theorem registryPages_exact_iff {Hash : Type} (s : MinerRegistry Hash) (v : ValidatorRegistry) :
    (∀ miner modelId offset limit,
      (s.getMinerModelsPaged miner offset limit =
          .ok (slice (s.minerModels miner) offset (min limit maxPageLimit)) ↔
        NoOverflow (s.minerModels miner).length offset (min limit maxPageLimit)) ∧
      (s.getProvidersForModelPaged modelId offset limit =
          .ok (slice (s.modelProviders modelId) offset (min limit maxPageLimit)) ↔
        NoOverflow (s.modelProviders modelId).length offset (min limit maxPageLimit)) ∧
      (v.getValidatorsPaged offset limit =
          .ok ((slice v.validatorList offset limit).map fun addr => (addr, v.validators addr)) ↔
        NoOverflow v.validatorList.length offset limit) ∧
      ∀ cap, v.getValidatorsPaged offset limit =
          .ok ((slice v.validatorList offset (min limit cap)).map
            fun addr => (addr, v.validators addr)) ↔
        NoOverflow v.validatorList.length offset limit ∧
          min limit (v.validatorList.length - offset) ≤ cap) ∧
    ∀ miner now limit, (∀ k, 0 < limit k) →
      ∃ n, 0 < n ∧ n ≤ max 1 (s.minerModels miner).length ∧
        (followCursor s miner now limit n).1 = (s.minerModels miner).length ∧
        (∀ k, 0 < k → k < n →
          (followCursor s miner now limit k).1 ≠ (s.minerModels miner).length) ∧
        ∃ callOf : ℕ → ℕ,
          (∀ i < (s.minerModels miner).length,
            callOf i < n ∧ Passes s miner now limit (callOf i) i) ∧
          (followCursor s miner now limit n).2 =
            (List.range (s.minerModels miner).length).filterMap
              (liveAt (s.minerModels miner) fun i => now (callOf i)) := by
  constructor
  · intro miner modelId offset limit
    refine ⟨?_, ?_, ?_, fun cap => ?_⟩
    · rw [MinerRegistry.getMinerModelsPaged, pageLimit_eq]
      exact page_eq_ok_iff
    · rw [MinerRegistry.getProvidersForModelPaged, pageLimit_eq]
      exact page_eq_ok_iff
    · rw [getValidatorsPaged_eq_ok_iff]
      exact page_eq_ok_iff
    · rw [getValidatorsPaged_eq_ok_iff]
      exact page_eq_ok_min_iff
  · intro miner now limit hlimit
    obtain ⟨n, hpos, hle, hend, hfirst⟩ := exists_followCursor_end s miner now hlimit
    obtain ⟨callOf, hcalls, hseen⟩ := followCursor_seen s miner now hlimit n
    rw [hend] at hcalls hseen
    refine ⟨n, hpos, hle, hend, hfirst, callOf, hcalls, ?_⟩
    rw [hseen, liveBetween, Nat.sub_zero, List.range_eq_range']

/-- The views on the empty registries, and a client that asks for one entry at a time. -/
theorem registryPages_exact_iff_empty :
    (@MinerRegistry.empty Bytes).getMinerModelsPaged 7 0 5 = .ok [] ∧
      ∃ n, 0 < n ∧ (followCursor (@MinerRegistry.empty Bytes) 7 id (fun _ => 1) n).1 = 0 := by
  obtain ⟨hpages, hclient⟩ := registryPages_exact_iff (@MinerRegistry.empty Bytes) .empty
  refine ⟨(hpages 7 [] 0 5).1.mpr (.inl le_rfl), ?_⟩
  obtain ⟨n, hpos, -, hend, -⟩ := hclient 7 id (fun _ => 1) fun _ => Nat.one_pos
  exact ⟨n, hpos, hend⟩

/-- Two validators register. -/
def twoValidatorsRun : List (ValidatorRegistry.Transaction Bytes) :=
  [ValidatorRegistry.callWithUid 7 sender_seven 1 (.register []),
    ValidatorRegistry.callWithUid 9 sender_nine 2 (.register [])]

/-- With two validators, asking for all entries from the second on reverts. -/
theorem getValidatorsPaged_reverts :
    (Transition.run (ValidatorRegistry.step id 0 0) twoValidatorsRun .empty).map (fun v =>
      (v.validatorList, slice v.validatorList 1 (2 ^ 256 - 1),
        v.getValidatorsPaged 1 (2 ^ 256 - 1))) =
      some ([7, 9], [9], .error "Panic(0x11)") := by
  decide +kernel

end Verathos.Contracts
