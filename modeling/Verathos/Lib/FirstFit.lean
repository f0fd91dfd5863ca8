import Mathlib.Tactic

/-!
# First-fit packing

Items with sizes go, one after the other, into the first bin with room for them, or into a new one.

* `firstFit cap size items`: the bins in the order in which they were opened, each with its items
  and their total size;
* `Packing`: what every run keeps. The bins hold the items, each in the order of the items, and no
  bin holds more than `cap` (`firstFit_packing`);
* `dvd_sum_of_sorted`: when each size divides the sizes before it, a bin has its items at multiples
  of their own sizes.
-/

namespace FirstFit

variable {ι : Type*}

/-- A bin: its items in the order in which they came, and the sum of their sizes. -/
abbrev Bin (ι : Type*) : Type _ := List ι × ℕ

/-- An item goes into the first bin with room for it. -/
def place (cap : ℕ) (size : ι → ℕ) (item : ι) : List (Bin ι) → List (Bin ι)
  | [] => [([item], size item)]
  | (items, used) :: bins =>
    if used + size item ≤ cap then (items ++ [item], used + size item) :: bins
    else (items, used) :: place cap size item bins

/-- All items are placed, in order. -/
def firstFit (cap : ℕ) (size : ι → ℕ) (items : List ι) : List (Bin ι) :=
  items.foldl (fun bins item => place cap size item bins) []

variable {cap : ℕ} {size : ι → ℕ} {item : ι} {items : List ι} {bins : List (Bin ι)}

/-- The bins hold the items, each bin in the order of the items and within the capacity. -/
structure Packing (cap : ℕ) (size : ι → ℕ) (items : List ι) (bins : List (Bin ι)) : Prop where
  perm : (bins.flatMap Prod.fst).Perm items
  sublist : ∀ bin ∈ bins, bin.1.Sublist items
  used_eq : ∀ bin ∈ bins, bin.2 = (bin.1.map size).sum
  used_le : ∀ bin ∈ bins, bin.2 ≤ cap
  ne_nil : ∀ bin ∈ bins, bin.1 ≠ []

theorem perm_place : ((place cap size item bins).flatMap Prod.fst).Perm
    (bins.flatMap Prod.fst ++ [item]) := by
  induction bins with
  | nil => rfl
  | cons bin bins ih =>
    obtain ⟨first, used⟩ := bin
    rw [place]
    split_ifs
    · simp only [List.flatMap_cons, List.append_assoc]
      exact List.perm_append_comm.append_left first
    · simp only [List.flatMap_cons, List.append_assoc]
      exact ih.append_left first

/-- A bin after an item was placed is an old one, or an old or empty one with room for the item,
and the item in it. -/
theorem mem_place {bin : Bin ι} (h : bin ∈ place cap size item bins) :
    bin ∈ bins ∨ bin = ([item], size item) ∨
      ∃ old ∈ bins, old.2 + size item ≤ cap ∧ bin = (old.1 ++ [item], old.2 + size item) := by
  induction bins with
  | nil => exact .inr (.inl (List.mem_singleton.mp h))
  | cons first bins ih =>
    obtain ⟨items, used⟩ := first
    rw [place] at h
    split_ifs at h with hroom
    · rcases List.mem_cons.mp h with rfl | h
      · exact .inr (.inr ⟨_, List.mem_cons_self, hroom, rfl⟩)
      · exact .inl (List.mem_cons_of_mem _ h)
    · rcases List.mem_cons.mp h with rfl | h
      · exact .inl List.mem_cons_self
      · rcases ih h with h | h | ⟨old, hold, h⟩
        · exact .inl (List.mem_cons_of_mem _ h)
        · exact .inr (.inl h)
        · exact .inr (.inr ⟨old, List.mem_cons_of_mem _ hold, h⟩)

theorem Packing.place (h : Packing cap size items bins) (hitem : size item ≤ cap) :
    Packing cap size (items ++ [item]) (place cap size item bins) where
  perm := perm_place.trans (h.perm.append_right [item])
  sublist := by
    intro bin hbin
    rcases mem_place hbin with hbin | rfl | ⟨old, hold, -, rfl⟩
    · exact (h.sublist bin hbin).trans (List.sublist_append_left items [item])
    · exact List.sublist_append_right items [item]
    · exact (h.sublist old hold).append_right [item]
  used_eq := by
    intro bin hbin
    rcases mem_place hbin with hbin | rfl | ⟨old, hold, -, rfl⟩
    · exact h.used_eq bin hbin
    · simp
    · simp [h.used_eq old hold]
  used_le := by
    intro bin hbin
    rcases mem_place hbin with hbin | rfl | ⟨old, hold, hroom, rfl⟩
    · exact h.used_le bin hbin
    · exact hitem
    · exact hroom
  ne_nil := by
    intro bin hbin
    rcases mem_place hbin with hbin | rfl | ⟨old, hold, -, rfl⟩
    · exact h.ne_nil bin hbin
    · simp
    · simp

theorem firstFit_packing (h : ∀ item ∈ items, size item ≤ cap) :
    Packing cap size items (firstFit cap size items) := by
  induction items using List.reverseRecOn with
  | nil => constructor <;> simp [firstFit]
  | append_singleton items item ih =>
    rw [firstFit, List.foldl_append]
    refine (ih fun a ha => h a (List.mem_append_left _ ha)).place ?_
    exact h item (List.mem_append_right _ (List.mem_singleton_self item))

theorem Packing.length_le (h : Packing cap size items bins) : bins.length ≤ items.length := by
  rw [← h.perm.length_eq, List.length_flatMap]
  have hone : ∀ n ∈ bins.map fun bin => bin.1.length, 1 ≤ n := by
    intro n hn
    obtain ⟨bin, hbin, rfl⟩ := List.mem_map.mp hn
    exact List.length_pos_iff.mpr (h.ne_nil bin hbin)
  simpa using List.card_nsmul_le_sum _ 1 hone

theorem dvd_sum_of_sorted {before after : List ι}
    (h : (before ++ item :: after).Pairwise fun a b => size b ∣ size a) :
    size item ∣ (before.map size).sum := by
  refine List.dvd_sum fun n hn => ?_
  obtain ⟨a, ha, rfl⟩ := List.mem_map.mp hn
  exact (List.pairwise_append.mp h).2.2 a ha item List.mem_cons_self

end FirstFit
