import Mathlib.Tactic
import Mathlib.Data.List.Sort

/-!
# Sorted lists without repetition

A program that hashes a set first lists it in increasing order. `sortedSet` is that list. It is
determined by its elements (`eq_of_mem_iff`), so two programs that collect the same elements in
different ways list them in the same way (`sortedSet_congr`).
-/

namespace SortedSet

variable {α : Type*} [LinearOrder α]

/-- The elements in increasing order. -/
def sorted (items : List α) : List α := items.insertionSort (· ≤ ·)

/-- The elements in increasing order, each once. -/
def sortedSet (items : List α) : List α := sorted items.dedup

/-- The items are in increasing order and none is repeated. -/
def IsCanonical (items : List α) : Prop := items = sorted items ∧ items.dedup.length = items.length

instance (items : List α) : Decidable (IsCanonical items) := inferInstanceAs (Decidable (_ ∧ _))

variable {items : List α}

@[simp]
theorem mem_sorted {a : α} : a ∈ sorted items ↔ a ∈ items :=
  (List.perm_insertionSort _ items).mem_iff

@[simp]
theorem mem_sortedSet {a : α} : a ∈ sortedSet items ↔ a ∈ items := by
  rw [sortedSet, mem_sorted, List.mem_dedup]

theorem pairwise_lt_of_nodup (hsorted : items.Pairwise (· ≤ ·)) (hnodup : items.Nodup) :
    items.Pairwise (· < ·) :=
  List.Pairwise.imp₂ (fun _ _ hle hne => lt_of_le_of_ne hle hne) hsorted hnodup

theorem pairwise_sortedSet (items : List α) : (sortedSet items).Pairwise (· < ·) := by
  refine pairwise_lt_of_nodup (List.pairwise_insertionSort _ _) ?_
  exact (List.perm_insertionSort _ _).nodup_iff.mpr items.nodup_dedup

theorem eq_of_mem_iff_of_key {β : Type*} {key : β → α} {items items' : List β}
    (h : (items.map key).Pairwise (· < ·)) (h' : (items'.map key).Pairwise (· < ·))
    (hmem : ∀ b, b ∈ items ↔ b ∈ items') : items = items' := by
  rw [List.pairwise_map] at h h'
  have hnodup : items.Nodup := h.imp fun hlt heq => absurd (congrArg key heq) hlt.ne
  have hnodup' : items'.Nodup := h'.imp fun hlt heq => absurd (congrArg key heq) hlt.ne
  have hperm : items.Perm items' := (List.perm_ext_iff_of_nodup hnodup hnodup').mpr hmem
  refine hperm.eq_of_pairwise ?_ h h'
  intro a b _ _ hlt hgt
  exact absurd hlt hgt.asymm

theorem length_sortedSet_le (items : List α) : (sortedSet items).length ≤ items.length := by
  rw [sortedSet, sorted, List.length_insertionSort]
  exact items.dedup_sublist.length_le

theorem eq_of_mem_iff {items' : List α} (h : items.Pairwise (· < ·)) (h' : items'.Pairwise (· < ·))
    (hmem : ∀ a, a ∈ items ↔ a ∈ items') : items = items' :=
  @eq_of_mem_iff_of_key α _ α id _ _ (by rwa [List.map_id]) (by rwa [List.map_id]) hmem

theorem idxOf_lt_idxOf [BEq α] [LawfulBEq α] (h : items.Pairwise (· < ·)) {a b : α} (ha : a ∈ items)
    (hb : b ∈ items) (hlt : a < b) : items.idxOf a < items.idxOf b := by
  have hindexA := List.idxOf_lt_length_of_mem ha
  have hindexB := List.idxOf_lt_length_of_mem hb
  rcases lt_trichotomy (items.idxOf a) (items.idxOf b) with hlt' | heq | hgt
  · exact hlt'
  · exact absurd ((List.idxOf_inj ha).mp heq) hlt.ne
  · have hdesc := List.pairwise_iff_getElem.mp h _ _ hindexB hindexA hgt
    rw [List.getElem_idxOf, List.getElem_idxOf] at hdesc
    exact absurd hdesc hlt.asymm

theorem sortedSet_congr {items' : List α} (h : ∀ a, a ∈ items ↔ a ∈ items') :
    sortedSet items = sortedSet items' := by
  refine eq_of_mem_iff (pairwise_sortedSet _) (pairwise_sortedSet _) ?_
  simpa using h

theorem eq_sortedSet_iff : items = sortedSet items ↔ items.Pairwise (· < ·) := by
  constructor
  · intro h
    rw [h]
    exact pairwise_sortedSet items
  · intro h
    refine eq_of_mem_iff h (pairwise_sortedSet _) ?_
    simp

theorem isCanonical_iff : IsCanonical items ↔ items.Pairwise (· < ·) := by
  constructor
  · rintro ⟨hsorted, hlength⟩
    refine pairwise_lt_of_nodup ?_ ?_
    · rw [hsorted]
      exact List.pairwise_insertionSort _ _
    · rw [← List.dedup_eq_self]
      exact items.dedup_sublist.eq_of_length hlength
  · intro h
    have hnodup : items.Nodup := h.imp ne_of_lt
    refine ⟨?_, ?_⟩
    · exact ((h.imp le_of_lt).insertionSort_eq).symm
    · rw [hnodup.dedup]

end SortedSet
