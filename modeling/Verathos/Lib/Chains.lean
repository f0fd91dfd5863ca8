import Mathlib.Data.List.Chain
import Mathlib.Tactic

/-!
# Chains

Chains of hashes (`HashChain`), and chains that a checker follows for every key (`KeyedChain`).
-/

/-!
## Hash chains

A chain absorbs items one after the other: the next value is the hash of a message that holds the
value before and the item. When the messages determine what they hold, two chains of the same length
that end at the same value have absorbed the same items, or two of their messages collide
(`eq_or_collide`).
-/

namespace HashChain

variable {ι M D : Type*} (hash : M → D) (event : D → ι → M)

/-- The value of the chain after the items. -/
def link : D → List ι → D
  | chain, [] => chain
  | chain, item :: items => link (hash (event chain item)) items

/-- The messages that are hashed on the way. -/
def messages : D → List ι → List M
  | _, [] => []
  | chain, item :: items => event chain item :: messages (hash (event chain item)) items

/-- A message of each list, different ones with one hash. -/
def Collide (messages messages' : List M) : Prop :=
  ∃ m ∈ messages, ∃ m' ∈ messages', m ≠ m' ∧ hash m = hash m'

variable {hash event}

theorem Collide.mono {messages messages' more more' : List M} (h : Collide hash messages messages')
    (hmore : messages ⊆ more) (hmore' : messages' ⊆ more') : Collide hash more more' := by
  obtain ⟨m, hm, m', hm', hne, heq⟩ := h
  exact ⟨m, hmore hm, m', hmore' hm', hne, heq⟩

theorem eq_or_collide_of_mem {messages messages' : List M} {m m' : M} (hm : m ∈ messages)
    (hm' : m' ∈ messages') (heq : hash m = hash m') : m = m' ∨ Collide hash messages messages' := by
  by_cases hne : m = m'
  · exact .inl hne
  · exact .inr ⟨m, hm, m', hm', hne, heq⟩

theorem link_append (chain : D) (items items' : List ι) :
    link hash event chain (items ++ items') =
      link hash event (link hash event chain items) items' := by
  induction items generalizing chain with
  | nil => rfl
  | cons item items ih => exact ih _

/-- Chains of related items that end at one value started at one value and absorbed the same items,
unless their messages collide. -/
theorem eq_or_collide_of_forall₂ {R : ι → ι → Prop}
    (hevent : ∀ c c' i i', R i i' → event c i = event c' i' → c = c' ∧ i = i')
    {items items' : List ι} (hitems : List.Forall₂ R items items') {chain chain' : D}
    (heq : link hash event chain items = link hash event chain' items') :
    (chain = chain' ∧ items = items') ∨
      Collide hash (messages hash event chain items) (messages hash event chain' items') := by
  induction hitems generalizing chain chain' with
  | nil => exact .inl ⟨heq, rfl⟩
  | cons hitem _ ih =>
    rcases ih heq with ⟨hhash, rfl⟩ | hcollide
    · refine (eq_or_collide_of_mem List.mem_cons_self List.mem_cons_self hhash).imp_left ?_
      intro hmessage
      obtain ⟨rfl, rfl⟩ := hevent _ _ _ _ hitem hmessage
      exact ⟨rfl, rfl⟩
    · exact .inr (hcollide.mono (List.subset_cons_self _ _) (List.subset_cons_self _ _))

theorem eq_or_collide (hevent : ∀ c c' i i', event c i = event c' i' → c = c' ∧ i = i')
    {items items' : List ι} (hlength : items.length = items'.length) {chain chain' : D}
    (heq : link hash event chain items = link hash event chain' items') :
    (chain = chain' ∧ items = items') ∨
      Collide hash (messages hash event chain items) (messages hash event chain' items') := by
  have hitems : List.Forall₂ (fun _ _ => True) items items' :=
    List.forall₂_iff_get.mpr ⟨hlength, fun _ _ _ => trivial⟩
  exact eq_or_collide_of_forall₂ (fun c c' i i' _ => hevent c c' i i') hitems heq

/-- Lists with one image are equal when equal images come from equal items, unless `P`. -/
theorem eq_or_of_map {α β : Type*} {P : Prop} {f : α → β} {items items' : List α}
    (h : ∀ a ∈ items, ∀ b ∈ items', f a = f b → a = b ∨ P)
    (heq : items.map f = items'.map f) : items = items' ∨ P := by
  induction items generalizing items' with
  | nil => exact .inl (List.map_eq_nil_iff.mp heq.symm).symm
  | cons a items ih =>
    obtain ⟨b, rest, rfl, hb, hrest⟩ := List.map_eq_cons_iff.mp heq.symm
    rcases h a List.mem_cons_self b List.mem_cons_self hb.symm with rfl | hp
    · rcases ih (fun a ha b hb => h a (List.mem_cons_of_mem _ ha) b (List.mem_cons_of_mem _ hb))
        hrest.symm with rfl | hp
      · exact .inl rfl
      · exact .inr hp
    · exact .inr hp

end HashChain

/-!
## Chains by key

Items with keys arrive in one sequence. A checker keeps the last item of every key, and compares each
item with the last one of its key. It accepts exactly when, for every key, the items of that key
follow one another.

* `Checked`: what the checker verifies, from the last items that it knows.
* `checked_iff`: the items of every key form a chain.
-/

namespace KeyedChain

variable {α κ : Type*} [DecidableEq κ] (key : α → κ) (R : α → α → Prop)

/-- Every item follows the last item of its key. -/
def Checked (last : κ → Option α) : List α → Prop
  | [] => True
  | item :: items =>
    (∀ before, last (key item) = some before → R before item) ∧
      Checked (Function.update last (key item) (some item)) items

/-- The last items after a sequence. -/
def lastItems (last : κ → Option α) (items : List α) : κ → Option α :=
  items.foldl (fun last item => Function.update last (key item) (some item)) last

/-- The items of a key. -/
def ofKey (k : κ) (items : List α) : List α := items.filter fun item => key item = k

variable {key R} {last : κ → Option α} {items items' : List α} {item : α} {k : κ}

@[simp]
theorem ofKey_nil : ofKey key k [] = [] := rfl

theorem ofKey_cons_self : ofKey key (key item) (item :: items) = item :: ofKey key (key item) items :=
  List.filter_cons_of_pos (decide_eq_true rfl)

theorem ofKey_cons_of_ne (h : key item ≠ k) : ofKey key k (item :: items) = ofKey key k items :=
  List.filter_cons_of_neg (by simpa using h)

theorem ofKey_append : ofKey key k (items ++ items') = ofKey key k items ++ ofKey key k items' :=
  List.filter_append ..

theorem checked_append : Checked key R last (items ++ items') ↔
    Checked key R last items ∧ Checked key R (lastItems key last items) items' := by
  induction items generalizing last with
  | nil => exact (and_iff_right trivial).symm
  | cons item items ih =>
    rw [List.cons_append, Checked, Checked, ih, and_assoc]
    rfl

/-- A sequence is checked exactly when the items of every key, after the last one that is known,
form a chain. -/
theorem checked_iff_of_last : Checked key R last items ↔
    ∀ k, ((last k).toList ++ ofKey key k items).IsChain R := by
  induction items generalizing last with
  | nil =>
    refine iff_of_true trivial fun k => ?_
    cases last k <;> simp
  | cons item items ih =>
    rw [Checked, ih]
    constructor
    · rintro ⟨hitem, hrest⟩ k
      by_cases hk : key item = k
      · subst hk
        have hchain := hrest (key item)
        rw [Function.update_self, Option.toList_some, List.singleton_append] at hchain
        rw [ofKey_cons_self]
        cases hlast : last (key item) with
        | none => exact hchain
        | some before => exact List.isChain_cons_cons.mpr ⟨hitem before hlast, hchain⟩
      · have hchain := hrest k
        rwa [Function.update_of_ne (Ne.symm hk), ← ofKey_cons_of_ne hk] at hchain
    · intro h
      refine ⟨fun before hlast => ?_, fun k => ?_⟩
      · have hchain := h (key item)
        rw [hlast, ofKey_cons_self, Option.toList_some, List.singleton_append] at hchain
        exact (List.isChain_cons_cons.mp hchain).1
      · by_cases hk : key item = k
        · subst hk
          have hchain := h (key item)
          rw [ofKey_cons_self] at hchain
          rw [Function.update_self, Option.toList_some, List.singleton_append]
          exact (List.isChain_append.mp hchain).2.1
        · have hrest : ofKey key k (item :: items) = ofKey key k items := ofKey_cons_of_ne hk
          rw [Function.update_of_ne (Ne.symm hk), ← hrest]
          exact h k

theorem checked_iff : Checked key R (fun _ => none) items ↔
    ∀ k, (ofKey key k items).IsChain R :=
  checked_iff_of_last

end KeyedChain
