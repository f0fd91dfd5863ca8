import Mathlib.Tactic

/-!
# Streaks of movable items

Items stand under keys. A history records the successes of a key, what ends its streak, and moves of
an item from one key to another. The streak of a key is the number of successes of the item that now
stands there since its streak last ended, under whatever keys it stood (`streak`).

A store that counts streaks is right about a history (`Counts`) when every counter is the streak of
its key. Each kind of event has a rule that says how the counters have to change for the store to
stay right.
-/

namespace Streak

variable {κ : Type*} [DecidableEq κ]

/-- What can happen to the items. -/
inductive Event (κ : Type*)
  | passed (key : κ)
  | reset (key : κ)
  /-- The item under the first key moves to the second one. -/
  | moved (old new : κ)
deriving DecidableEq

/-- The length of the streak of a key. The last event stands first. -/
def streak : List (Event κ) → κ → ℕ
  | [], _ => 0
  | .passed key :: history, k => if k = key then streak history k + 1 else streak history k
  | .reset key :: history, k => if k = key then 0 else streak history k
  | .moved old new :: history, k => if k = new then streak history old else streak history k

/-- Every counter of a store is the streak of its key. -/
def Counts (history : List (Event κ)) (counter : κ → Option ℤ) : Prop :=
  ∀ k n, counter k = some n → n = streak history k

variable {history : List (Event κ)} {counter counter' : κ → Option ℤ}

theorem Counts.empty (h : ∀ k, counter k = none) : Counts history counter := by
  intro k n hk
  rw [h] at hk
  cases hk

/-- A store that only forgets stays right. -/
theorem Counts.mono (h : Counts history counter)
    (hforgets : ∀ k n, counter' k = some n → counter k = some n) : Counts history counter' :=
  fun k n hk => h k n (hforgets k n hk)

theorem Counts.passed {key : κ} (h : Counts history counter)
    (hkey : ∀ n, counter' key = some n → ∃ m, counter key = some m ∧ n = m + 1)
    (hother : ∀ k, k ≠ key → counter' k = counter k) :
    Counts (.passed key :: history) counter' := by
  intro k n hk
  by_cases hne : k = key
  · subst hne
    obtain ⟨m, hm, rfl⟩ := hkey n hk
    have hcount := h k m hm
    rw [streak, if_pos rfl]
    push_cast
    omega
  · rw [streak, if_neg hne]
    exact h k n (hother k hne ▸ hk)

theorem Counts.reset {key : κ} (h : Counts history counter)
    (hkey : ∀ n, counter' key = some n → n = 0)
    (hother : ∀ k, k ≠ key → counter' k = counter k) :
    Counts (.reset key :: history) counter' := by
  intro k n hk
  by_cases hne : k = key
  · subst hne
    rw [streak, if_pos rfl]
    exact hkey n hk
  · rw [streak, if_neg hne]
    exact h k n (hother k hne ▸ hk)

theorem Counts.moved {old new : κ} (h : Counts history counter)
    (hnew : counter' new = counter old)
    (hother : ∀ k n, k ≠ new → counter' k = some n → counter k = some n) :
    Counts (.moved old new :: history) counter' := by
  intro k n hk
  by_cases hne : k = new
  · subst hne
    rw [streak, if_pos rfl]
    exact h old n (hnew ▸ hk)
  · rw [streak, if_neg hne]
    exact h k n (hother k n hne hk)

end Streak
