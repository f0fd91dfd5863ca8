import Verathos.Merkle.Schedule

/-!
# Both reconstructions climb the same tree

Given the expected schedule, the dictionary-based Python loop and the array-based C loop both
return the root that `Multiproof.climb` defines from the opened leaves and the carried digests.
The two proofs run in parallel: what merging the siblings of one level gives, what pairing up
the children gives, and an induction over the levels that remain.
-/

namespace Verathos.Merkle

open Multiproof

variable (sha256 : Bytes → Digest)

/-- The digest of an opened leaf whose row holds canonical elements. -/
def leafDigest (leafPrefix : Bytes) (index : ℕ) (row : List ℤ) : Digest :=
  sha256 (leafPrefix ++ packI index ++ row.flatMap fun value => LittleEndian.toBytes 8 value.toNat)

/-! ## The Python loop -/

/-- The dictionary holds the digests `node` of exactly the nodes of `current`. -/
def Represents (nodes : Nodes) (current : Finset ℕ) (node : ℕ → Digest) : Prop :=
  ∀ i, nodes.lookup i = if i ∈ current then some (node i) else none

variable {sha256} in
theorem Represents.keys {nodes : Nodes} {current : Finset ℕ} {node : ℕ → Digest}
    (h : Represents nodes current node) : nodes.keys = current := by
  ext i
  rw [Finmap.mem_keys, ← Finmap.lookup_isSome, h i]
  split_ifs with hi <;> simp [hi]

theorem mergeSiblings_spec {digests : List Digest} {siblings : List ℕ} (nodes : Nodes)
    {offset : ℕ} {sibling : ℕ → Digest} {rest : List Digest}
    (hdigests : digests.drop offset = siblings.map sibling ++ rest) :
    ∃ merged, mergeSiblings digests siblings nodes offset = .ok (merged, offset + siblings.length) ∧
      ∀ i, merged.lookup i = if i ∈ siblings then some (sibling i) else nodes.lookup i := by
  induction siblings generalizing nodes offset with
  | nil => exact ⟨nodes, rfl, by simp⟩
  | cons s siblings ih =>
    have hhead : digests[offset]? = some (sibling s) := by
      have := congrArg (fun l => l[0]?) hdigests
      simpa using this
    have htail : digests.drop (offset + 1) = siblings.map sibling ++ rest := by
      rw [← List.drop_drop, hdigests]
      rfl
    obtain ⟨merged, hmerged, hlookup⟩ := ih (nodes.insert s (sibling s)) htail
    refine ⟨merged, ?_, fun i => ?_⟩
    · rw [mergeSiblings, bind_eq_ok]
      refine ⟨sibling s, getItem_eq_ok.mpr hhead, ?_⟩
      rw [hmerged, List.length_cons, Nat.add_assoc, Nat.add_comm 1]
    · rw [hlookup]
      by_cases hmem : i ∈ siblings
      · simp [hmem]
      · by_cases his : i = s
        · subst his
          simp [hmem]
        · simp [hmem, his, Finmap.lookup_insert_of_ne]

theorem hashParents_spec (combine : ℕ → Digest → Digest → Digest) {nodes : Nodes}
    {child : ℕ → Digest} {indices : List ℕ} (stored : Nodes)
    (hchild : ∀ j ∈ indices, nodes.lookup (j * 2) = some (child (2 * j)) ∧
      nodes.lookup (j * 2 + 1) = some (child (2 * j + 1))) :
    ∃ parents, hashParents combine nodes indices stored = .ok parents ∧
      ∀ j, parents.lookup j =
        if j ∈ indices then some (combine j (child (2 * j)) (child (2 * j + 1)))
        else stored.lookup j := by
  induction indices generalizing stored with
  | nil => exact ⟨stored, rfl, by simp⟩
  | cons p indices ih =>
    obtain ⟨⟨hleft, hright⟩, hrest⟩ := List.forall_mem_cons.mp hchild
    obtain ⟨parents, hparents, hlookup⟩ :=
      ih (stored.insert p (combine p (child (2 * p)) (child (2 * p + 1)))) hrest
    refine ⟨parents, ?_, fun j => ?_⟩
    · rw [hashParents, hleft, hright]
      exact hparents
    · rw [hlookup]
      by_cases hmem : j ∈ indices
      · simp [hmem]
      · by_cases hjp : j = p
        · subst hjp
          simp [hmem]
        · simp [hmem, hjp, Finmap.lookup_insert_of_ne]

theorem byLevel_schedule_self (remaining level : ℕ) (current : Finset ℕ) :
    byLevel (schedule (remaining + 1) level current) level = (missing current).sort := by
  have hself : ((missing current).sort.map (level, ·)).filter (·.1 = level) =
      (missing current).sort.map (level, ·) :=
    List.filter_eq_self.mpr (by simp)
  have hrest : (schedule remaining (level + 1) (parents current)).filter (·.1 = level) = [] := by
    refine List.filter_eq_nil_iff.mpr fun c hc => ?_
    have := (mem_schedule.mp hc).1
    simp only [decide_eq_true_eq]
    omega
  rw [byLevel, schedule, List.filter_append, hself, hrest, List.append_nil, List.map_map]
  exact List.map_id _

theorem byLevel_schedule_of_lt {remaining level l : ℕ} (current : Finset ℕ) (hl : level < l) :
    byLevel (schedule (remaining + 1) level current) l =
      byLevel (schedule remaining (level + 1) (parents current)) l := by
  have hfirst : ((missing current).sort.map (level, ·)).filter (·.1 = l) = [] := by
    refine List.filter_eq_nil_iff.mpr fun c hc => ?_
    obtain ⟨i, -, rfl⟩ := List.mem_map.mp hc
    simp only [decide_eq_true_eq]
    omega
  rw [byLevel, schedule, List.filter_append, hfirst, List.nil_append, byLevel]

/-- The Python loop recomputes the root and consumes every sibling digest. -/
theorem reconstructLoop_spec (nodePrefix : Bytes) {coordinates : List (ℕ × ℕ)}
    {digests : List Digest} (sibling : ℕ → ℕ → Digest) {remaining level : ℕ} (offset : ℕ)
    {current : Finset ℕ} {nodes : Nodes} {node : ℕ → Digest}
    (hnodes : Represents nodes current node)
    (hcoordinates : ∀ l, level ≤ l →
      byLevel coordinates l = byLevel (schedule remaining level current) l)
    (hdigests : digests.drop offset =
      (schedule remaining level current).map fun c => sibling c.1 c.2)
    (hne : current.Nonempty) (hlt : ∀ i ∈ current, i < 2 ^ remaining) :
    ∃ final, reconstructLoop sha256 nodePrefix coordinates digests remaining level nodes offset =
        .ok (final, offset + (schedule remaining level current).length) ∧
      final.keys = {0} ∧
      final.lookup 0 = some (climb (Compiled.nodeDigest sha256 nodePrefix) sibling remaining level
        current node) := by
  induction remaining generalizing level offset current nodes node with
  | zero =>
    have hzero : current = {0} := by
      rw [← ancestors_zero current]
      exact ancestors_eq_singleton hne hlt
    refine ⟨nodes, rfl, hnodes.keys.trans hzero, ?_⟩
    rw [hnodes 0, if_pos (by simp [hzero]), climb]
  | succ remaining ih =>
    have hsplit : digests.drop offset = (missing current).sort.map (sibling level) ++
        (schedule remaining (level + 1) (parents current)).map fun c => sibling c.1 c.2 := by
      rw [hdigests, schedule, List.map_append, List.map_map]
      rfl
    obtain ⟨merged, hmerged, hlookup⟩ := mergeSiblings_spec nodes hsplit
    -- every child of a parent is now stored under the digest that `pick` chooses
    have hpick : ∀ i, i / 2 ∈ parents current →
        merged.lookup i = some (pick current node (sibling level) i) := by
      intro i hi
      simp only [hlookup i, Finset.mem_sort, hnodes i, pick]
      rcases Finset.mem_union.mp (mem_union_missing.mpr hi) with h | h
      · rw [if_neg (Finset.disjoint_left.mp (disjoint_missing current) h), if_pos h, if_pos h]
      · rw [if_pos h, if_neg (mem_missing.mp h).2]
    have hchildren : ∀ j ∈ (parents current).sort,
        merged.lookup (j * 2) = some (pick current node (sibling level) (2 * j)) ∧
        merged.lookup (j * 2 + 1) = some (pick current node (sibling level) (2 * j + 1)) := by
      intro j hj
      rw [Finset.mem_sort] at hj
      rw [hpick (j * 2) (by rwa [show j * 2 / 2 = j by omega]),
        hpick (j * 2 + 1) (by rwa [show (j * 2 + 1) / 2 = j by omega]), mul_comm j 2]
      exact ⟨rfl, rfl⟩
    obtain ⟨next, hnext, hnextLookup⟩ :=
      hashParents_spec (Compiled.nodeDigest sha256 nodePrefix (level + 1)) ∅ hchildren
    have hrepresents : Represents next (parents current)
        (climbStep (Compiled.nodeDigest sha256 nodePrefix) sibling level current node) := by
      intro j
      simp only [hnextLookup j, Finset.mem_sort, Finmap.lookup_empty, climbStep]
    have hparents := lt_of_mem_parents hlt
    have hrest : digests.drop (offset + (missing current).sort.length) =
        (schedule remaining (level + 1) (parents current)).map fun c => sibling c.1 c.2 := by
      rw [← List.drop_drop, hsplit, ← List.length_map (f := sibling level), List.drop_left]
    obtain ⟨final, hfinal, hkeys, hroot⟩ := ih _ hrepresents
      (fun l hl => by
        rw [hcoordinates l (by omega), byLevel_schedule_of_lt current (by omega)])
      hrest (parents_nonempty hne) hparents
    refine ⟨final, ?_, hkeys, hroot⟩
    rw [reconstructLoop, hcoordinates level le_rfl, byLevel_schedule_self, hnodes.keys]
    refine bind_eq_ok.mpr ⟨_, hmerged, bind_eq_ok.mpr ⟨next, hnext, ?_⟩⟩
    rw [hfinal, schedule, List.length_append, List.length_map, Nat.add_assoc]

/-! ## The C loop -/

namespace Compiled

/-- The arrays that hold the digests `node` of the nodes of `current`. -/
def workOf (current : Finset ℕ) (node : ℕ → Digest) : Work :=
  current.sort.map fun i => (i, node i)

theorem insertShift_map (node : ℕ → Digest) (s : ℕ) (indices : List ℕ) :
    insertShift (s, node s) (indices.map fun i => (i, node i)) =
      (indices.orderedInsert (· ≥ ·) s).map fun i => (i, node i) := by
  induction indices with
  | nil => rfl
  | cons i indices ih =>
    rw [List.map_cons, insertShift, List.orderedInsert_cons]
    by_cases h : s ≥ i
    · rw [if_neg (by simpa using h), if_pos h]
      rfl
    · rw [if_pos (by simpa using h), if_neg h, ih]
      rfl

variable {current : Finset ℕ}

theorem insertSibling_workOf (node : ℕ → Digest) {s : ℕ} (hs : s ∉ current) :
    insertSibling (workOf current node) (s, node s) = workOf (insert s current) node := by
  set inserted := (current.sort.reverse.orderedInsert (· ≥ ·) s).reverse with hinserted
  have hperm : inserted.Perm (s :: current.sort) :=
    ((List.reverse_perm _).trans (List.perm_orderedInsert _ _ _)).trans
      ((List.reverse_perm _).cons s)
  have hnodup : inserted.Nodup :=
    hperm.nodup_iff.mpr (List.nodup_cons.mpr ⟨by simpa using hs, Finset.sort_nodup _ _⟩)
  have hsorted : inserted.Pairwise (· ≤ ·) := by
    rw [hinserted, List.pairwise_reverse]
    refine List.Pairwise.orderedInsert _ _ ?_
    rw [List.pairwise_reverse]
    exact Finset.pairwise_sort _ _
  have hfinset : inserted.toFinset = insert s current := by
    rw [List.toFinset_eq_of_perm _ _ hperm, List.toFinset_cons, Finset.sort_toFinset]
  have hsort : (insert s current).sort = inserted := by
    rw [← hfinset]
    exact (List.toFinset_sort (· ≤ ·) hnodup).mpr hsorted
  rw [insertSibling, workOf, ← List.map_reverse, insertShift_map, ← List.map_reverse, workOf, hsort]

theorem mergeSiblings_workOf (level : ℕ) (node : ℕ → Digest) {siblings : List ℕ}
    (rest : List (ℕ × ℕ × Digest)) (hnodup : siblings.Nodup)
    (hdisjoint : ∀ s ∈ siblings, s ∉ current) (hrest : ∀ c ∈ rest, c.1 ≠ level) :
    mergeSiblings level (workOf current node)
        ((siblings.map fun s => (level, s, node s)) ++ rest) =
      (workOf (current ∪ siblings.toFinset) node, rest) := by
  induction siblings generalizing current with
  | nil =>
    rw [List.map_nil, List.nil_append, List.toFinset_nil, Finset.union_empty]
    match rest, hrest with
    | [], _ => rfl
    | (l, i, d) :: rest, hrest =>
      rw [mergeSiblings, if_neg (hrest (l, i, d) List.mem_cons_self)]
  | cons s siblings ih =>
    obtain ⟨hs, hnodup⟩ := List.nodup_cons.mp hnodup
    obtain ⟨hscurrent, hdisjoint⟩ := List.forall_mem_cons.mp hdisjoint
    rw [List.map_cons, List.cons_append, mergeSiblings, if_pos rfl,
      insertSibling_workOf node hscurrent, ih hnodup]
    · rw [List.toFinset_cons, Finset.insert_union, Finset.union_insert]
    · intro t ht hmem
      rcases Finset.mem_insert.mp hmem with rfl | hmem
      · exact hs ht
      · exact hdisjoint t ht hmem

theorem sort_union_missing (current : Finset ℕ) :
    (current ∪ missing current).sort =
      (parents current).sort.flatMap fun j => [2 * j, 2 * j + 1] := by
  set children := (parents current).sort.flatMap fun j => [2 * j, 2 * j + 1] with hchildren
  have hsorted : children.Pairwise (· < ·) := by
    rw [hchildren, List.pairwise_flatMap]
    refine ⟨fun j _ => by simp, (parents current).sortedLT_sort.pairwise.imp ?_⟩
    intro j k hjk a ha b hb
    simp only [List.mem_cons, List.not_mem_nil, or_false] at ha hb
    omega
  have hfinset : children.toFinset = current ∪ missing current := by
    ext i
    rw [mem_union_missing, List.mem_toFinset, hchildren]
    simp only [List.mem_flatMap, Finset.mem_sort, List.mem_cons, List.not_mem_nil, or_false]
    constructor
    · rintro ⟨j, hj, h⟩
      rwa [show i / 2 = j by omega]
    · intro h
      exact ⟨i / 2, h, by omega⟩
  rw [← hfinset]
  exact (List.toFinset_sort (· ≤ ·) (hsorted.imp fun hab => Nat.ne_of_lt hab)).mpr
    (hsorted.imp fun hab => Nat.le_of_lt hab)

theorem pairUp_children (combine : ℕ → Digest → Digest → Digest) (node : ℕ → Digest)
    (indices : List ℕ) :
    pairUp combine ((indices.flatMap fun j => [2 * j, 2 * j + 1]).map fun i => (i, node i)) =
      .ok (indices.map fun j => (j, combine j (node (2 * j)) (node (2 * j + 1)))) := by
  induction indices with
  | nil => rfl
  | cons j indices ih =>
    have heven : 2 * j &&& 1 = 0 := by
      rw [Nat.and_one_is_mod]
      omega
    have hhalf : (2 * j) >>> 1 = j := by
      rw [Nat.shiftRight_one]
      omega
    simp only [List.flatMap_cons, List.cons_append, List.nil_append, List.map_cons, pairUp, heven,
      hhalf, ne_eq, not_true, or_self, if_false, ih, bind, Except.bind, pure, Except.pure]

theorem reconstructLoop_workOf (nodePrefix : Bytes) (sibling : ℕ → ℕ → Digest) (remaining level : ℕ)
    (node : ℕ → Digest) (hne : current.Nonempty) (hlt : ∀ i ∈ current, i < 2 ^ remaining) :
    reconstructLoop sha256 nodePrefix (2 ^ remaining) level (workOf current node)
        ((schedule remaining level current).map fun c => (c.1, c.2, sibling c.1 c.2)) =
      .ok ([(0, climb (nodeDigest sha256 nodePrefix) sibling remaining level current node)], []) := by
  induction remaining generalizing level current node with
  | zero =>
    have hzero : current = {0} := by
      rw [← ancestors_zero current]
      exact ancestors_eq_singleton hne hlt
    rw [reconstructLoop, dif_neg (by simp), schedule, workOf, hzero, Finset.sort_singleton]
    rfl
  | succ remaining ih =>
    have hhalf : 2 ^ (remaining + 1) >>> 1 = 2 ^ remaining := by
      rw [Nat.shiftRight_one, pow_succ]
      omega
    have hparents := lt_of_mem_parents hlt
    -- on the active nodes and on the carried ones the digest is the one that `pick` chooses
    set child := pick current node (sibling level) with hchild
    have hwork : workOf current node = workOf current child := by
      refine List.map_congr_left fun i hi => ?_
      rw [hchild, pick, if_pos (by simpa using hi)]
    have hsiblings :
        (schedule (remaining + 1) level current).map (fun c => (c.1, c.2, sibling c.1 c.2)) =
        ((missing current).sort.map fun s => (level, s, child s)) ++
          (schedule remaining (level + 1) (parents current)).map
            fun c => (c.1, c.2, sibling c.1 c.2) := by
      rw [schedule, List.map_append, List.map_map]
      refine congrArg (· ++ _) (List.map_congr_left fun s hs => ?_)
      rw [Finset.mem_sort] at hs
      rw [hchild, pick, if_neg (mem_missing.mp hs).2]
      rfl
    have hlater : ∀ c ∈ (schedule remaining (level + 1) (parents current)).map
        (fun c => (c.1, c.2, sibling c.1 c.2)), c.1 ≠ level := by
      intro c hc
      obtain ⟨⟨l, i⟩, hli, rfl⟩ := List.mem_map.mp hc
      have := (mem_schedule.mp hli).1
      simp only
      omega
    have hmerge := mergeSiblings_workOf level child _ (Finset.sort_nodup (missing current) (· ≤ ·))
      (fun s hs => (mem_missing.mp ((Finset.mem_sort _).mp hs)).2) hlater
    rw [Finset.sort_toFinset] at hmerge
    have hpair : pairUp (nodeDigest sha256 nodePrefix (level + 1))
        (workOf (current ∪ missing current) child) =
        .ok (workOf (parents current)
          (climbStep (nodeDigest sha256 nodePrefix) sibling level current node)) := by
      rw [workOf, sort_union_missing, pairUp_children]
      rfl
    rw [reconstructLoop, dif_pos (Nat.one_lt_two_pow (by omega)), hwork, hsiblings, hmerge, hhalf]
    simp only [hpair, bind, Except.bind]
    rw [ih _ _ (parents_nonempty hne) hparents, climb]

end Compiled

end Verathos.Merkle
