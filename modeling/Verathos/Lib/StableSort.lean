import Mathlib.Tactic

/-!
# Sorting and ranking

Stable sorting by a key (`StableSort`), and partial selections of the largest items
(`TopSelection`).
-/

/-!
## Stable sorting by a key

`sortBy key items` sorts by a key and keeps the order of items with equal keys. What is read off the
sorted list depends on the order of the items only through ties: it is the same for every
permutation exactly when items with equal keys agree (`forall_perm_map_sortBy_iff`).
-/

namespace StableSort

variable {α β κ : Type*} [LinearOrder κ] (key : α → κ)

/-- The items sorted by their keys, items with equal keys in their order. -/
def sortBy (items : List α) : List α :=
  items.mergeSort fun a b => decide (key a ≤ key b)

theorem sortBy_perm (items : List α) : (sortBy key items).Perm items :=
  List.mergeSort_perm _ _

@[simp]
theorem mem_sortBy {items : List α} {a : α} : a ∈ sortBy key items ↔ a ∈ items :=
  (sortBy_perm key items).mem_iff

theorem pairwise_sortBy (items : List α) :
    (sortBy key items).Pairwise fun a b => key a ≤ key b := by
  have h := @List.pairwise_mergeSort _ (fun a b => decide (key a ≤ key b))
    (fun a b c hab hbc => by simpa using le_trans (of_decide_eq_true hab) (of_decide_eq_true hbc))
    (fun a b => by simpa using le_total (key a) (key b)) items
  exact h.imp fun hab => of_decide_eq_true hab

theorem sortBy_of_pairwise {items : List α} (h : items.Pairwise fun a b => key a ≤ key b) :
    sortBy key items = items :=
  List.mergeSort_of_pairwise (h.imp fun hab => by simpa using hab)

/-- The sorted keys only depend on which keys there are. -/
theorem map_key_sortBy {items items' : List α} (h : (items.map key).Perm (items'.map key)) :
    (sortBy key items).map key = (sortBy key items').map key := by
  refine @List.Perm.eq_of_pairwise _ (· ≤ ·) _ _ (fun a b _ _ => le_antisymm) ?_ ?_ ?_
  · exact List.pairwise_map.mpr (pairwise_sortBy key items)
  · exact List.pairwise_map.mpr (pairwise_sortBy key items')
  · exact (((sortBy_perm key items).map key).trans h).trans ((sortBy_perm key items').map key).symm

/-- Stability: the items with one key stand in their order. -/
theorem filter_sortBy (items : List α) (k : κ) :
    (sortBy key items).filter (fun a => key a = k) = items.filter fun a => key a = k := by
  -- the items with the key are in order already, so they are a sublist of the sorted list
  have hsublist : (items.filter fun a => key a = k).Sublist (sortBy key items) := by
    refine List.sublist_mergeSort (fun a b c hab hbc => ?_) (fun a b => ?_) ?_ List.filter_sublist
    · simpa using le_trans (of_decide_eq_true hab) (of_decide_eq_true hbc)
    · simpa using le_total (key a) (key b)
    · refine List.pairwise_of_forall_mem_list fun a ha b hb => ?_
      have hka : key a = k := by simpa using (List.mem_filter.mp ha).2
      have hkb : key b = k := by simpa using (List.mem_filter.mp hb).2
      simp [hka, hkb]
  have hfilter := hsublist.filter fun a => decide (key a = k)
  rw [List.filter_filter] at hfilter
  simp only [Bool.and_self] at hfilter
  exact (hfilter.eq_of_length ((sortBy_perm key items).filter _).length_eq.symm).symm

/-- Sorted lists are equal when they hold the same items in the same order at every key. -/
theorem eq_of_filter_key {items items' : List α}
    (hsorted : items.Pairwise fun a b => key a ≤ key b)
    (hsorted' : items'.Pairwise fun a b => key a ≤ key b)
    (h : ∀ k, items.filter (fun a => key a = k) = items'.filter fun a => key a = k) :
    items = items' := by
  induction items generalizing items' with
  | nil =>
    refine (List.eq_nil_iff_forall_not_mem.mpr fun b hb => ?_).symm
    have hmem : b ∈ items'.filter fun a => key a = key b := List.mem_filter.mpr ⟨hb, by simp⟩
    rw [← h] at hmem
    exact absurd hmem List.not_mem_nil
  | cons a items ih =>
    have hhead : a ∈ items' := by
      have hmem : a ∈ (a :: items).filter fun b => key b = key a :=
        List.mem_filter.mpr ⟨List.mem_cons_self, by simp⟩
      rw [h] at hmem
      exact (List.mem_filter.mp hmem).1
    cases items' with
    | nil => exact absurd hhead List.not_mem_nil
    | cons b items' =>
      obtain ⟨hle, htail⟩ := List.pairwise_cons.mp hsorted
      obtain ⟨hle', htail'⟩ := List.pairwise_cons.mp hsorted'
      -- each head has the least key of both lists
      have hhead' : b ∈ a :: items := by
        have hmem : b ∈ (b :: items').filter fun a => key a = key b :=
          List.mem_filter.mpr ⟨List.mem_cons_self, by simp⟩
        rw [← h] at hmem
        exact (List.mem_filter.mp hmem).1
      have hkey : key a = key b := by
        refine le_antisymm ?_ ?_
        · rcases List.mem_cons.mp hhead' with rfl | hmem
          · exact le_rfl
          · exact hle b hmem
        · rcases List.mem_cons.mp hhead with rfl | hmem
          · exact le_rfl
          · exact hle' a hmem
      have hsame := h (key a)
      rw [List.filter_cons_of_pos (by simp), List.filter_cons_of_pos (by simp [hkey])] at hsame
      obtain ⟨rfl, hrest⟩ := List.cons.inj hsame
      congr 1
      refine ih htail htail' fun k => ?_
      by_cases hk : key a = k
      · rw [← hk]
        exact hrest
      · have hother := h k
        rwa [List.filter_cons_of_neg (by simpa using hk),
          List.filter_cons_of_neg (by simpa using hk)] at hother

theorem sortBy_filter (p : α → Bool) (items : List α) :
    (sortBy key items).filter p = sortBy key (items.filter p) := by
  refine eq_of_filter_key key ((pairwise_sortBy key items).filter p) (pairwise_sortBy key _)
    fun k => ?_
  calc ((sortBy key items).filter p).filter (fun a => key a = k)
      = ((sortBy key items).filter fun a => key a = k).filter p := by
        rw [List.filter_filter, List.filter_filter]
        simp only [Bool.and_comm]
    _ = (items.filter fun a => key a = k).filter p := by rw [filter_sortBy]
    _ = (items.filter p).filter (fun a => key a = k) := by
        rw [List.filter_filter, List.filter_filter]
        simp only [Bool.and_comm]
    _ = (sortBy key (items.filter p)).filter fun a => key a = k := (filter_sortBy key _ k).symm

theorem forall_perm_map_sortBy_iff (out : α → β) (items : List α) :
    (∀ items', items'.Perm items → (sortBy key items').map out = (sortBy key items).map out) ↔
      ∀ a ∈ items, ∀ b ∈ items, key a = key b → out a = out b := by
  have hpairs : ∀ items' : List α, (sortBy key items').map (fun a => (key a, out a)) =
      ((sortBy key items').map key).zip ((sortBy key items').map out) := fun items' =>
    List.zip_map'.symm
  constructor
  · intro h a ha b hb hkey
    classical
    by_cases hab : a = b
    · rw [hab]
    -- put `a` and `b` in front, in both orders
    have hb' : b ∈ items.erase a := (List.mem_erase_of_ne (Ne.symm hab)).mpr hb
    have hperm : (a :: b :: (items.erase a).erase b).Perm items :=
      ((List.perm_cons_erase hb').symm.cons a).trans (List.perm_cons_erase ha).symm
    have hswap := (List.Perm.swap a b ((items.erase a).erase b)).trans hperm
    have hsame := (h _ hperm).trans (h _ hswap).symm
    have hfiltered : ∀ items' : List α,
        ((sortBy key items').map fun a => (key a, out a)).filter (fun pair => pair.1 = key a) =
          (items'.filter fun a' => key a' = key a).map fun a => (key a, out a) := by
      intro items'
      rw [List.filter_map, ← filter_sortBy]
      rfl
    have heq := hfiltered (a :: b :: (items.erase a).erase b)
    rw [hpairs, hsame, map_key_sortBy key ((hperm.trans hswap.symm).map key), ← hpairs, hfiltered,
      List.filter_cons_of_pos (by simpa using hkey.symm), List.filter_cons_of_pos (by simp),
      List.filter_cons_of_pos (by simp), List.filter_cons_of_pos (by simpa using hkey.symm),
      List.map_cons, List.map_cons] at heq
    exact (congrArg Prod.snd (List.cons.inj heq).1).symm
  · intro h items' hperm
    have hmem : ∀ {a}, a ∈ sortBy key items' → a ∈ items := fun ha =>
      hperm.subset ((mem_sortBy key).mp ha)
    have hsorted : ((sortBy key items').map fun a => (key a, out a)) =
        (sortBy key items).map fun a => (key a, out a) := by
      refine @List.Perm.eq_of_pairwise _ (fun x y => x.1 ≤ y.1) _ _ ?_ ?_ ?_ ?_
      · rintro x y hx hy hxy hyx
        obtain ⟨a, ha, rfl⟩ := List.mem_map.mp hx
        obtain ⟨b, hb, rfl⟩ := List.mem_map.mp hy
        have hkey := le_antisymm hxy hyx
        exact Prod.ext hkey (h a (hmem ha) b ((mem_sortBy key).mp hb) hkey)
      · exact List.pairwise_map.mpr (pairwise_sortBy key items')
      · exact List.pairwise_map.mpr (pairwise_sortBy key items)
      · exact (((sortBy_perm key items').trans hperm).trans (sortBy_perm key items).symm).map _
    have hout := congrArg (List.map Prod.snd) hsorted
    simpa only [List.map_map, Function.comp_def] using hout

end StableSort

/-!
## Selections of the largest items

The items are ranked by a key, the largest first, and by their own order where keys agree. A partial
selection takes `k` items such that no other item has a larger key; among items with the key at the cut
it is free.

* `Selection`: what a partial selection guarantees;
* `sorted_selection_of_noTie`: when no key occurs on both sides of the cut, every selection, once
  sorted, is the first `k` items of the ranking;
* `noTieAtCut_of_ascending`: the last items of the ascending order are the selection that shows that
  this condition cannot be dropped.
-/

namespace TopSelection

open StableSort (sortBy sortBy_perm mem_sortBy pairwise_sortBy)

variable {α κ : Type*} [LinearOrder α] [LinearOrder κ] (key : α → κ)

/-- The place of an item in the ranking: larger keys first, then the order of the items. -/
def rank (a : α) : κᵒᵈ ×ₗ α := toLex (OrderDual.toDual (key a), a)

/-- The items from the largest key on. -/
def ranking (items : List α) : List α := sortBy (rank key) items

/-- The items from the smallest key on, in their order where keys agree. -/
def ascending (items : List α) : List α := sortBy (fun a => (toLex (key a, a) : κ ×ₗ α)) items

/-- A choice of `k` items such that no other item has a larger key. -/
structure Selection (items : List α) (k : ℕ) (chosen : List α) : Prop where
  nodup : chosen.Nodup
  subset : chosen ⊆ items
  length_eq : chosen.length = k
  le_of_mem : ∀ a ∈ chosen, ∀ b ∈ items, b ∉ chosen → key b ≤ key a

/-- No key occurs both before and after the cut of the ranking at `k`. -/
def NoTieAtCut (items : List α) (k : ℕ) : Prop :=
  ∀ a ∈ (ranking key items).take k, ∀ b ∈ (ranking key items).drop k, key b < key a

variable {key} {items : List α} {k : ℕ} {chosen : List α} {a b : α}

/-! ### Ranks -/

omit [LinearOrder α] [LinearOrder κ] in
theorem rank_injective : Function.Injective (rank key) := by
  intro a b h
  exact congrArg Prod.snd (toLex.injective h)

theorem rank_le_iff : rank key a ≤ rank key b ↔ key b < key a ∨ key a = key b ∧ a ≤ b := by
  rw [rank, rank, Prod.Lex.toLex_le_toLex]
  simp only [OrderDual.toDual_lt_toDual, OrderDual.toDual_inj]

theorem mem_ranking : a ∈ ranking key items ↔ a ∈ items := mem_sortBy (rank key)

/-- Sorting by ranks depends only on which items there are. -/
theorem sortBy_rank_eq {items' : List α} (h : items.Perm items') :
    sortBy (rank key) items = sortBy (rank key) items' := by
  refine List.Perm.eq_of_pairwise (fun a b _ _ hab hba => rank_injective (le_antisymm hab hba))
    (pairwise_sortBy (rank key) items) (pairwise_sortBy (rank key) items') ?_
  exact ((sortBy_perm _ items).trans h).trans (sortBy_perm _ items').symm

/-! ### Cuts of a sorted list -/

omit [LinearOrder α] in
theorem le_of_mem_take_of_mem_drop {lam : Type*} [LinearOrder lam] {place : α → lam}
    {sorted : List α} {m : ℕ} (hsorted : sorted.Pairwise fun a b => place a ≤ place b)
    (ha : a ∈ sorted.take m) (hb : b ∈ sorted.drop m) : place a ≤ place b := by
  rw [← List.take_append_drop m sorted, List.pairwise_append] at hsorted
  exact hsorted.2.2 a ha b hb

omit [LinearOrder α] in
theorem mem_drop_of_le {lam : Type*} [LinearOrder lam] {place : α → lam}
    (hplace : Function.Injective place) {sorted : List α} {m : ℕ}
    (hsorted : sorted.Pairwise fun a b => place a ≤ place b) (ha : a ∈ sorted.drop m)
    (hb : b ∈ sorted) (hle : place a ≤ place b) : b ∈ sorted.drop m := by
  rw [← List.take_append_drop m sorted, List.mem_append] at hb
  rcases hb with htake | hdrop
  · -- an item before the cut can only be the same one
    have hge := le_of_mem_take_of_mem_drop hsorted htake ha
    rwa [hplace (le_antisymm hge hle)]
  · exact hdrop

omit [LinearOrder α] [LinearOrder κ] in
theorem ascending_injective : Function.Injective fun a : α => (toLex (key a, a) : κ ×ₗ α) :=
  fun _ _ h => congrArg Prod.snd (toLex.injective h)

/-! ### The first items of the ranking -/

/-- Without a tie at the cut, a selection has the first items of the ranking. -/
theorem perm_take_of_noTie (hnodup : items.Nodup) (htie : NoTieAtCut key items k)
    (h : Selection key items k chosen) (hk : k ≤ items.length) :
    chosen.Perm ((ranking key items).take k) := by
  have hperm : (ranking key items).Perm items := sortBy_perm _ items
  have hranked : (ranking key items).Nodup := hperm.nodup_iff.mpr hnodup
  have hlength : ((ranking key items).take k).length = k := by
    rw [List.length_take, hperm.length_eq, min_eq_left hk]
  -- both lists have `k` items, so it is enough that every first item is chosen
  refine (List.subperm_of_subset (hranked.sublist (List.take_sublist _ _)) ?_).perm_of_length_le
    (by rw [h.length_eq, hlength]) |>.symm
  intro a ha
  by_contra hout
  -- some chosen item is not among the first ones
  have hother : ∃ b ∈ chosen, b ∉ (ranking key items).take k := by
    by_contra hall
    push Not at hall
    have hsame := (List.subperm_of_subset h.nodup hall).perm_of_length_le
      (by rw [h.length_eq, hlength])
    exact hout (hsame.mem_iff.mpr ha)
  obtain ⟨b, hb, hbout⟩ := hother
  have hb' : b ∈ ranking key items := mem_ranking.mpr (h.subset hb)
  rw [← List.take_append_drop k (ranking key items), List.mem_append] at hb'
  have hlt := htie a ha b (hb'.resolve_left hbout)
  have ha' : a ∈ items := mem_ranking.mp (List.take_subset _ _ ha)
  exact absurd (h.le_of_mem b hb a ha' hout) (not_le.mpr hlt)

theorem sortBy_take_ranking :
    sortBy (rank key) ((ranking key items).take k) = (ranking key items).take k :=
  StableSort.sortBy_of_pairwise _ ((pairwise_sortBy (rank key) items).sublist
    (List.take_sublist _ _))

theorem noTieAtCut_of_ascending (hnodup : items.Nodup)
    (h : sortBy (rank key) ((ascending key items).drop (items.length - k)) =
      (ranking key items).take k) :
    NoTieAtCut key items k := by
  intro a ha b hb
  have hperm : (ranking key items).Perm items := sortBy_perm _ items
  have hranked : (ranking key items).Nodup := hperm.nodup_iff.mpr hnodup
  have hle := le_of_mem_take_of_mem_drop (pairwise_sortBy (rank key) items) ha hb
  rcases rank_le_iff.mp hle with hlt | ⟨heq, hab⟩
  · exact hlt
  -- with equal keys the last items hold `b` when they hold `a`
  exfalso
  have hmem : ∀ c, c ∈ (ascending key items).drop (items.length - k) ↔
      c ∈ (ranking key items).take k := by
    intro c
    rw [← h, mem_sortBy]
  have hb' : b ∈ ascending key items :=
    (mem_sortBy _).mpr (mem_ranking.mp (List.drop_subset _ _ hb))
  have hin := mem_drop_of_le ascending_injective (pairwise_sortBy _ items) ((hmem a).mpr ha) hb'
    (Prod.Lex.toLex_le_toLex.mpr (.inr ⟨heq, hab⟩))
  exact List.disjoint_take_drop hranked le_rfl ((hmem b).mp hin) hb

theorem sorted_selection_of_noTie (hnodup : items.Nodup) (hk : k ≤ items.length)
    (htie : NoTieAtCut key items k) (h : Selection key items k chosen) :
    sortBy (rank key) chosen = (ranking key items).take k := by
  rw [sortBy_rank_eq (perm_take_of_noTie hnodup htie h hk), sortBy_take_ranking]

/-! ### The first item of the ranking -/

/-- The first item of the ranking: no other item has a larger key, and those with the same key come
later. -/
def IsFirst (key : α → κ) (items : List α) (a : α) : Prop :=
  a ∈ items ∧ ∀ b ∈ items, rank key a ≤ rank key b

theorem IsFirst.eq (ha : IsFirst key items a) (hb : IsFirst key items b) : a = b :=
  rank_injective (le_antisymm (ha.2 b hb.1) (hb.2 a ha.1))

theorem IsFirst.key_le (ha : IsFirst key items a) (hb : b ∈ items) : key b ≤ key a := by
  rcases rank_le_iff.mp (ha.2 b hb) with hlt | ⟨heq, -⟩
  · exact hlt.le
  · exact heq.ge

end TopSelection
