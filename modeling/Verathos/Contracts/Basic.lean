import Verathos.Basic

/-!
# Transactions

What the contracts of `contracts/src` share: addresses, reverting calls, the sender and the block of
a transaction, and mappings. A call returns the storage after it or reverts with the reason that the
source gives; a reverted call leaves the storage as it was.

Unsigned integers are natural numbers. Checked arithmetic reverts where the result leaves its range,
and the explicit conversion `uint64(x)` truncates.
-/

namespace Verathos.Contracts

/-- An EVM address; `address(0)` is 0. -/
abbrev Address := Fin (2 ^ 160)

instance addressNeZero : NeZero (2 ^ 160) := ⟨by positivity⟩

theorem sender_one : (1 : Address) ≠ 0 := by decide
theorem sender_two : (2 : Address) ≠ 0 := by decide
theorem sender_five : (5 : Address) ≠ 0 := by decide
theorem sender_seven : (7 : Address) ≠ 0 := by decide
theorem sender_nine : (9 : Address) ≠ 0 := by decide

/-- The result of a call that may revert with a reason. -/
abbrev Tx := Except String

def require (condition : Prop) [Decidable condition] (reason : String) : Tx Unit :=
  if condition then .ok () else .error reason

@[simp]
theorem require_eq_ok {condition : Prop} [Decidable condition] {reason : String} {u : Unit} :
    require condition reason = .ok u ↔ condition := by
  unfold require
  split_ifs with h <;> simp [h]

/-- Checked `uint64` addition. -/
def checkedAdd64 (a b : ℕ) : Tx ℕ := do
  require (a + b < 2 ^ 64) "Panic(0x11)"
  return a + b

@[simp]
theorem checkedAdd64_eq_ok {a b c : ℕ} :
    checkedAdd64 a b = .ok c ↔ a + b < 2 ^ 64 ∧ c = a + b := by
  simp only [checkedAdd64, bind_eq_ok, require_eq_ok, pure_eq_ok]
  constructor
  · rintro ⟨-, h, rfl⟩
    exact ⟨h, rfl⟩
  · rintro ⟨h, rfl⟩
    exact ⟨(), h, rfl⟩

/-- Sender and block of a transaction. No transaction is sent from `address(0)`. -/
structure Msg where
  sender : Address
  timestamp : ℕ
  sender_ne_zero : sender ≠ 0

/-! ## Mappings -/

/-- `mapping[key] = value`. -/
def assign {κ ν : Type} [DecidableEq κ] (mapping : κ → ν) (key : κ) (value : ν) : κ → ν :=
  Function.update mapping key value

section Assign

variable {κ ν : Type} [DecidableEq κ] (mapping : κ → ν) (value : ν)

@[simp]
theorem assign_self (key : κ) : assign mapping key value key = value := by
  rw [assign, Function.update_self]

@[simp]
theorem assign_of_ne {key other : κ} (h : other ≠ key) :
    assign mapping key value other = mapping other := by
  rw [assign, Function.update_of_ne h]

theorem assign_apply (key other : κ) :
    assign mapping key value other = if other = key then value else mapping other := by
  rw [assign, Function.update_apply]

end Assign

/-! ## Arrays -/

section Arrays

variable {α : Type}

/-- Swap-and-pop removal. -/
def swapPop (entries : List α) (index : ℕ) : List α :=
  let last := entries.length - 1
  match entries[last]? with
  | some lastEntry => (if index ≠ last then entries.set index lastEntry else entries).dropLast
  | none => entries

variable {m : α}

theorem getElem?_set_cases {entries : List α} {index j : ℕ} {m' : α}
    (h : (entries.set index m)[j]? = some m') :
    j = index ∧ m' = m ∨ j ≠ index ∧ entries[j]? = some m' := by
  rw [List.getElem?_set] at h
  split_ifs at h with hji
  · exact .inl ⟨hji.symm, (Option.some.inj h).symm⟩
  · exact .inr ⟨Ne.symm hji, h⟩

theorem mem_set_cases {entries : List α} {index : ℕ} {m' : α} (h : m' ∈ entries.set index m) :
    m' = m ∨ ∃ j, j ≠ index ∧ entries[j]? = some m' := by
  obtain ⟨j, hj⟩ := List.mem_iff_getElem?.mp h
  rcases getElem?_set_cases hj with ⟨-, hnew⟩ | hold
  · exact .inl hnew
  · exact .inr ⟨j, hold⟩

theorem getElem?_push_cases {entries : List α} {new : α} {i : ℕ}
    (h : (entries ++ [new])[i]? = some m) :
    entries[i]? = some m ∨ i = entries.length ∧ m = new := by
  rcases lt_or_ge i entries.length with hi | hi
  · rw [List.getElem?_append_left hi] at h
    exact .inl h
  · rw [List.getElem?_append_right hi, List.getElem?_singleton] at h
    split_ifs at h with hzero
    exact .inr ⟨by omega, (Option.some.inj h).symm⟩

/-- The entries after a swap-and-pop removal: the last entry moves to the index. -/
theorem getElem?_swapPop {entries : List α} {index : ℕ} (hindex : index < entries.length)
    (j : ℕ) :
    (swapPop entries index)[j]? =
      if j + 1 < entries.length then
        if j = index then entries[entries.length - 1]? else entries[j]?
      else none := by
  have hlast : entries[entries.length - 1]? = some entries[entries.length - 1] :=
    List.getElem?_eq_getElem (by omega)
  simp only [swapPop, hlast]
  by_cases hne : index ≠ entries.length - 1
  · rw [if_pos hne, List.getElem?_dropLast, List.length_set, List.getElem?_set]
    by_cases hj : j + 1 < entries.length
    · rw [if_pos (by omega), if_pos hj]
      by_cases hji : j = index
      · rw [if_pos hji, if_pos hji.symm, if_pos hindex]
      · rw [if_neg hji, if_neg (Ne.symm hji)]
    · rw [if_neg (by omega), if_neg hj]
  · rw [if_neg hne, List.getElem?_dropLast]
    by_cases hj : j + 1 < entries.length
    · rw [if_pos (by omega), if_pos hj, if_neg (by omega)]
    · rw [if_neg (by omega), if_neg hj]

theorem mem_of_swapPop {entries : List α} {index j : ℕ} (hindex : index < entries.length)
    (h : (swapPop entries index)[j]? = some m) :
    ∃ i, i ≠ index ∧ entries[i]? = some m ∧
      i = (if j = index then entries.length - 1 else j) ∧ j + 1 < entries.length := by
  rw [getElem?_swapPop hindex] at h
  split_ifs at h with hj hji
  · exact ⟨entries.length - 1, by omega, h, (if_pos hji).symm, hj⟩
  · exact ⟨j, hji, h, (if_neg hji).symm, hj⟩

theorem length_swapPop {entries : List α} {index : ℕ} (hindex : index < entries.length) :
    (swapPop entries index).length = entries.length - 1 := by
  have hlast : entries[entries.length - 1]? = some entries[entries.length - 1] :=
    List.getElem?_eq_getElem (by omega)
  simp only [swapPop, hlast]
  split_ifs <;> simp

section Nodup

variable {entries : List α} {index : ℕ} {removed : α} (hremoved : entries[index]? = some removed)
  (hnodup : entries.Nodup)
include hremoved hnodup

theorem nodup_swapPop : (swapPop entries index).Nodup := by
  have hindex : index < entries.length := (List.getElem?_eq_some_iff.mp hremoved).1
  rw [List.nodup_iff_getElem?_ne_getElem?]
  intro i j hij hj heq
  obtain ⟨m, hm⟩ : ∃ m, (swapPop entries index)[j]? = some m :=
    ⟨_, List.getElem?_eq_getElem hj⟩
  obtain ⟨i', -, hi, hi', -⟩ := mem_of_swapPop hindex (heq.trans hm)
  obtain ⟨j', -, hj, hj', hlast⟩ := mem_of_swapPop hindex hm
  have hne : i' ≠ j' := by
    rw [hi', hj']
    split_ifs <;> omega
  have hlt : i' < entries.length := (List.getElem?_eq_some_iff.mp hi).1
  exact hne ((List.getElem?_inj hlt hnodup).mp (hi.trans hj.symm))

theorem mem_swapPop_iff {m : α} : m ∈ swapPop entries index ↔ m ∈ entries ∧ m ≠ removed := by
  have hindex : index < entries.length := (List.getElem?_eq_some_iff.mp hremoved).1
  constructor
  · intro h
    obtain ⟨j, hj⟩ := List.mem_iff_getElem?.mp h
    obtain ⟨i, hi, hm, -⟩ := mem_of_swapPop hindex hj
    refine ⟨List.mem_of_getElem? hm, fun heq => hi ?_⟩
    have hlt : i < entries.length := (List.getElem?_eq_some_iff.mp hm).1
    exact (List.getElem?_inj hlt hnodup).mp (hm.trans (heq ▸ hremoved.symm))
  · rintro ⟨h, hne⟩
    obtain ⟨k, hk⟩ := List.mem_iff_getElem?.mp h
    have hlt : k < entries.length := (List.getElem?_eq_some_iff.mp hk).1
    have hki : k ≠ index := by
      rintro rfl
      exact hne (Option.some.inj (hk.symm.trans hremoved))
    rw [List.mem_iff_getElem?]
    by_cases hlast : k = entries.length - 1
    · -- the last entry is at the index now
      refine ⟨index, ?_⟩
      rw [getElem?_swapPop hindex, if_pos (by omega), if_pos rfl, ← hlast, hk]
    · refine ⟨k, ?_⟩
      rw [getElem?_swapPop hindex, if_pos (by omega), if_neg hki, hk]

end Nodup

end Arrays

/-! ## Precompiles -/

/-- The answers of the precompiles and of `owner()` that one transaction sees. They may change with
every transaction. A precompile call that reverts aborts the transaction, except for `uidLookup`,
whose failure the contracts catch. -/
structure Env (Hash : Type) where
  owner : Address
  /-- `UID_LOOKUP.uidLookup(netuid, caller, 1)`: the uids of the items, `none` when it reverts. -/
  uidLookup : Address → Option (List UInt16)
  uidCount : ℕ
  hotkey : UInt16 → Digest
  validatorStatus : UInt16 → Bool
  alphaStaked : Digest → ℕ
  /-- `ISr25519Verify(SR25519_VERIFY).verify(message, hotkey, sigR, sigS)`. -/
  sr25519Verify : Hash → Digest → Digest → Digest → Bool

/-- Answers under which every address resolves to the same validator and every check passes. -/
def Env.permissive {Hash : Type} : Env Hash where
  owner := 0
  uidLookup := fun _ => some [1]
  uidCount := 1
  hotkey := fun _ => Digest.zero
  validatorStatus := fun _ => true
  alphaStaked := fun _ => 0
  sr25519Verify := fun _ _ _ _ => true

end Verathos.Contracts
