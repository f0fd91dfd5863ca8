import Mathlib.Tactic

/-!
# Dictionaries in insertion order

A dictionary that iterates over its entries in the order in which their keys were inserted. Storing
under a key that is present keeps the place of the entry; a new key goes to the end.

* `OrderedDict κ β`: the entries, with distinct keys as an invariant;
* `get`, `set`, `erase`, `filter`: the operations, each with the lookup that follows it (`get_set`,
  `get_erase`);
* `ofList`: a dictionary filled from a list of pairs, which is the identity on the entries of a
  dictionary (`ofList_entries`) and finds the same values for any order of them
  (`get_ofList_of_perm`);
* `mapValues`, `mapItems`: every value replaced by its image.
-/

/-- A dictionary whose entries stand in the order of their insertion. -/
structure OrderedDict (κ β : Type*) where
  entries : List (κ × β)
  nodup_keys : (entries.map Prod.fst).Nodup

namespace OrderedDict

variable {κ β : Type*} [DecidableEq κ] {d : OrderedDict κ β} {k k' : κ} {v v' : β}

omit [DecidableEq κ] in
@[ext]
theorem ext {d d' : OrderedDict κ β} (h : d.entries = d'.entries) : d = d' := by
  cases d
  cases d'
  simpa using h

/-- A dictionary without entries. -/
def empty : OrderedDict κ β := ⟨[], List.nodup_nil⟩

/-- The value under a key. -/
def get (d : OrderedDict κ β) (k : κ) : Option β :=
  (d.entries.find? fun entry => entry.1 = k).map Prod.snd

@[simp]
theorem get_empty : (empty : OrderedDict κ β).get k = none := rfl

theorem get_eq_some : d.get k = some v ↔ (k, v) ∈ d.entries := by
  rw [get, Option.map_eq_some_iff]
  constructor
  · rintro ⟨⟨k', v'⟩, hfind, rfl⟩
    have hkey : k' = k := by simpa using List.find?_some hfind
    rw [← hkey]
    exact List.mem_of_find?_eq_some hfind
  · intro hmem
    have hsome : (d.entries.find? fun entry => entry.1 = k).isSome := by
      rw [List.find?_isSome]
      exact ⟨(k, v), hmem, by simp⟩
    obtain ⟨entry, hfind⟩ := Option.isSome_iff_exists.mp hsome
    have hkey : entry.1 = k := by simpa using List.find?_some hfind
    have hentry := List.inj_on_of_nodup_map d.nodup_keys (List.mem_of_find?_eq_some hfind) hmem hkey
    exact ⟨entry, hfind, congrArg Prod.snd hentry⟩

theorem get_eq_none : d.get k = none ↔ k ∉ d.entries.map Prod.fst := by
  rw [get, Option.map_eq_none_iff, List.find?_eq_none]
  simp only [decide_eq_true_eq, List.mem_map, not_exists, not_and]

/-! ## Storing -/

/-- The entries after `d[k] = v`. -/
def setEntries (entries : List (κ × β)) (k : κ) (v : β) : List (κ × β) :=
  if k ∈ entries.map Prod.fst then
    entries.map fun entry => if entry.1 = k then (k, v) else entry
  else entries ++ [(k, v)]

theorem map_fst_setEntries (entries : List (κ × β)) :
    (setEntries entries k v).map Prod.fst =
      if k ∈ entries.map Prod.fst then entries.map Prod.fst else entries.map Prod.fst ++ [k] := by
  unfold setEntries
  split_ifs with hmem
  · rw [List.map_map]
    refine List.map_congr_left fun entry _ => ?_
    by_cases hkey : entry.1 = k <;> simp [hkey]
  · rw [List.map_append, List.map_singleton]

/-- `d[k] = v`. -/
def set (d : OrderedDict κ β) (k : κ) (v : β) : OrderedDict κ β where
  entries := setEntries d.entries k v
  nodup_keys := by
    rw [map_fst_setEntries]
    split_ifs with hmem
    · exact d.nodup_keys
    · exact List.nodup_append.mpr ⟨d.nodup_keys, List.nodup_singleton k, fun a ha b hb hab =>
        hmem (List.mem_singleton.mp hb ▸ hab ▸ ha)⟩

theorem mem_setEntries {entries : List (κ × β)} {entry : κ × β} :
    entry ∈ setEntries entries k v ↔ entry = (k, v) ∨ entry.1 ≠ k ∧ entry ∈ entries := by
  unfold setEntries
  split_ifs with hmem
  · rw [List.mem_map]
    constructor
    · rintro ⟨old, hold, rfl⟩
      by_cases hkey : old.1 = k
      · exact Or.inl (if_pos hkey)
      · rw [if_neg hkey]
        exact Or.inr ⟨hkey, hold⟩
    · rintro (rfl | ⟨hkey, hentry⟩)
      · obtain ⟨old, hold, hkey⟩ := List.mem_map.mp hmem
        exact ⟨old, hold, if_pos hkey⟩
      · exact ⟨entry, hentry, if_neg hkey⟩
  · rw [List.mem_append, List.mem_singleton, or_comm]
    refine or_congr_right (iff_and_self.mpr fun hentry hkey => hmem ?_)
    exact List.mem_map.mpr ⟨entry, hentry, hkey⟩

theorem get_set (d : OrderedDict κ β) (k k' : κ) (v : β) :
    (d.set k v).get k' = if k' = k then some v else d.get k' := by
  refine Option.ext fun v' => ?_
  rw [get_eq_some]
  change (k', v') ∈ setEntries d.entries k v ↔ _
  rw [mem_setEntries, Prod.mk.injEq]
  split_ifs with hkey
  · simp [hkey, eq_comm]
  · simp [hkey, get_eq_some]

@[simp]
theorem get_set_self (d : OrderedDict κ β) (k : κ) (v : β) : (d.set k v).get k = some v := by
  rw [get_set, if_pos rfl]

theorem get_set_of_ne (d : OrderedDict κ β) (v : β) (h : k' ≠ k) : (d.set k v).get k' = d.get k' := by
  rw [get_set, if_neg h]

/-! ## Removing -/

/-- `del d[k]`, when `k` is present. -/
def erase (d : OrderedDict κ β) (k : κ) : OrderedDict κ β where
  entries := d.entries.filter fun entry => entry.1 ≠ k
  nodup_keys := d.nodup_keys.sublist (List.filter_sublist.map Prod.fst)

theorem get_erase (d : OrderedDict κ β) (k k' : κ) :
    (d.erase k).get k' = if k' = k then none else d.get k' := by
  refine Option.ext fun v' => ?_
  rw [get_eq_some]
  change (k', v') ∈ d.entries.filter _ ↔ _
  rw [List.mem_filter, decide_eq_true_eq]
  split_ifs with hkey
  · simp [hkey]
  · simp [hkey, get_eq_some]

/-- The entries with a property, as a loop leaves them that deletes the others. -/
def filter (p : κ × β → Bool) (d : OrderedDict κ β) : OrderedDict κ β where
  entries := d.entries.filter p
  nodup_keys := d.nodup_keys.sublist (List.filter_sublist.map Prod.fst)

theorem get_filter (p : κ × β → Bool) (d : OrderedDict κ β) (k : κ) :
    (d.filter p).get k = (d.get k).filter fun v => p (k, v) := by
  refine Option.ext fun v => ?_
  rw [get_eq_some, Option.filter_eq_some_iff, get_eq_some]
  exact List.mem_filter

/-! ## Filling -/

/-- The dictionary filled with these pairs, in order. -/
def ofList (pairs : List (κ × β)) : OrderedDict κ β :=
  pairs.foldl (fun d pair => d.set pair.1 pair.2) empty

/-- Filling a dictionary with the entries of another one whose keys it does not have. -/
theorem entries_foldl_set (pairs : List (κ × β)) (d : OrderedDict κ β)
    (hnodup : ((d.entries ++ pairs).map Prod.fst).Nodup) :
    (pairs.foldl (fun d pair => d.set pair.1 pair.2) d).entries = d.entries ++ pairs := by
  induction pairs generalizing d with
  | nil => rw [List.foldl_nil, List.append_nil]
  | cons pair pairs ih =>
    -- the key of the pair is new, so the pair goes to the end
    have hnew : pair.1 ∉ d.entries.map Prod.fst := by
      intro hmem
      rw [List.map_append, List.map_cons, List.nodup_append] at hnodup
      exact hnodup.2.2 _ hmem _ List.mem_cons_self rfl
    have hset : (d.set pair.1 pair.2).entries = d.entries ++ [pair] := by
      change setEntries d.entries pair.1 pair.2 = _
      rw [setEntries, if_neg hnew]
    rw [List.foldl_cons, ih, hset, List.append_assoc, List.singleton_append]
    rwa [hset, List.append_assoc, List.singleton_append]

/-- A filled dictionary has every key that it had and every key of the pairs. -/
theorem exists_get_foldl_set (pairs : List (κ × β)) (d : OrderedDict κ β)
    (h : (∃ v, d.get k = some v) ∨ k ∈ pairs.map Prod.fst) :
    ∃ v, (pairs.foldl (fun d pair => d.set pair.1 pair.2) d).get k = some v := by
  induction pairs generalizing d with
  | nil => simpa using h
  | cons pair pairs ih =>
    rw [List.foldl_cons]
    apply ih
    by_cases hkey : k = pair.1
    · exact Or.inl ⟨pair.2, by rw [get_set, if_pos hkey]⟩
    · rcases h with ⟨v, hv⟩ | hmem
      · exact Or.inl ⟨v, by rw [get_set_of_ne d pair.2 hkey, hv]⟩
      · exact Or.inr ((List.mem_cons.mp hmem).resolve_left hkey)

variable {pairs : List (κ × β)}

theorem exists_get_ofList (h : k ∈ pairs.map Prod.fst) : ∃ v, (ofList pairs).get k = some v :=
  exists_get_foldl_set pairs empty (Or.inr h)

@[simp]
theorem ofList_entries (d : OrderedDict κ β) : ofList d.entries = d := by
  apply ext
  have h := entries_foldl_set d.entries empty (by simpa [empty] using d.nodup_keys)
  simpa [ofList, empty] using h

theorem get_ofList_of_perm (h : pairs.Perm d.entries) (k : κ) : (ofList pairs).get k = d.get k := by
  have hnodup : (pairs.map Prod.fst).Nodup := (h.map Prod.fst).nodup_iff.mpr d.nodup_keys
  have hentries := entries_foldl_set pairs empty (by simpa [empty] using hnodup)
  refine Option.ext fun v => ?_
  rw [get_eq_some, get_eq_some, ofList, hentries, ← h.mem_iff]
  rfl

/-- The entries of a dictionary that is filled with pairs of distinct keys. -/
theorem entries_ofList (h : (pairs.map Prod.fst).Nodup) : (ofList pairs).entries = pairs := by
  have hentries := entries_foldl_set pairs empty (by simpa [empty] using h)
  simpa [ofList, empty] using hentries

/-! ## Changing every value -/

omit [DecidableEq κ] in
/-- Every value is replaced by its image. -/
def mapValues {γ : Type*} (f : β → γ) (d : OrderedDict κ β) : OrderedDict κ γ where
  entries := d.entries.map fun entry => (entry.1, f entry.2)
  nodup_keys := by
    rw [List.map_map]
    exact d.nodup_keys

theorem get_mapValues {γ : Type*} (f : β → γ) (d : OrderedDict κ β) (k : κ) :
    (d.mapValues f).get k = (d.get k).map f := by
  refine Option.ext fun v => ?_
  rw [get_eq_some, Option.map_eq_some_iff]
  change (k, v) ∈ d.entries.map _ ↔ _
  simp only [List.mem_map, get_eq_some, Prod.mk.injEq]
  constructor
  · rintro ⟨⟨k', v'⟩, hmem, rfl, rfl⟩
    exact ⟨v', hmem, rfl⟩
  · rintro ⟨v', hmem, rfl⟩
    exact ⟨(k, v'), hmem, rfl, rfl⟩

/-- Every value replaced by an image that may depend on its key. -/
def mapItems (f : κ → β → β) (d : OrderedDict κ β) : OrderedDict κ β where
  entries := d.entries.map fun entry => (entry.1, f entry.1 entry.2)
  nodup_keys := by
    rw [List.map_map]
    exact d.nodup_keys

theorem get_mapItems (f : κ → β → β) (d : OrderedDict κ β) (k : κ) :
    (d.mapItems f).get k = (d.get k).map (f k) := by
  ext v
  rw [get_eq_some, Option.map_eq_some_iff]
  simp only [mapItems, List.mem_map, Prod.mk.injEq, get_eq_some]
  constructor
  · rintro ⟨entry, hentry, rfl, rfl⟩
    exact ⟨entry.2, hentry, rfl⟩
  · rintro ⟨value, hvalue, rfl⟩
    exact ⟨(k, value), hvalue, rfl, rfl⟩

end OrderedDict

/-!
## Grouping into a dictionary

A loop that updates the value under the key of every item. What it leaves under a key comes from the
items with that key alone (`get_groupBy`), whatever stands between them.

`map_entries_perm`: what is read off the values does not depend on the order of the keys.
-/

namespace OrderedDict

variable {α κ β γ : Type*} [DecidableEq κ] {key : α → κ} {step : β → α → β} {init : β}

/-- `d[key(item)] = step(d.get(key(item), init), item)`. -/
def update (key : α → κ) (step : β → α → β) (init : β) (d : OrderedDict κ β) (item : α) :
    OrderedDict κ β :=
  d.set (key item) (step ((d.get (key item)).getD init) item)

/-- The dictionary after all items. -/
def groupBy (key : α → κ) (step : β → α → β) (init : β) (items : List α) : OrderedDict κ β :=
  items.foldl (update key step init) empty

theorem get_groupBy (items : List α) (k : κ) :
    (groupBy key step init items).get k =
      if items.filter (fun item => key item = k) = [] then none
      else some ((items.filter fun item => key item = k).foldl step init) := by
  induction items using List.reverseRecOn with
  | nil => rfl
  | append_singleton items item ih =>
    have hgroup : groupBy key step init (items ++ [item]) =
        update key step init (groupBy key step init items) item := List.foldl_concat ..
    rw [hgroup, update, get_set, List.filter_append]
    by_cases hkey : key item = k
    · subst hkey
      rw [if_pos rfl, ih]
      have hsingle : [item].filter (fun other => key other = key item) = [item] := by simp
      rw [hsingle, if_neg (List.append_ne_nil_of_right_ne_nil _ (List.cons_ne_nil item [])),
        List.foldl_concat]
      split_ifs with hnone
      · rw [hnone]
        rfl
      · rfl
    · rw [if_neg (fun h => hkey h.symm), ih]
      have hnone : [item].filter (fun other => key other = k) = [] := by simp [hkey]
      rw [hnone, List.append_nil]

theorem map_entries_perm {d d' : OrderedDict κ β} {f : β → γ}
    (h : ∀ k, (d.get k).map f = (d'.get k).map f) :
    (d.entries.map fun entry => f entry.2).Perm (d'.entries.map fun entry => f entry.2) := by
  have hget : ∀ k, (d.mapValues f).get k = (d'.mapValues f).get k := by
    intro k
    rw [get_mapValues, get_mapValues, h]
  have hperm : (d.mapValues f).entries.Perm (d'.mapValues f).entries := by
    rw [List.perm_ext_iff_of_nodup (List.Nodup.of_map _ (d.mapValues f).nodup_keys)
      (List.Nodup.of_map _ (d'.mapValues f).nodup_keys)]
    rintro ⟨k, v⟩
    rw [← get_eq_some, ← get_eq_some, hget]
  have himage := hperm.map Prod.snd
  rwa [mapValues, mapValues, List.map_map, List.map_map] at himage

end OrderedDict
