import Verathos.ColumnGroups.Defs
import Verathos.Pcs.Sumcheck

/-!
# The packing of column groups

The members of a group lie one after the other at multiples of their sizes, so that the block point
of a member selects exactly its cells.

* `memberPlans_spec`, `memberPlans_complete`: what the loop over the members gives, and that it
  never meets a member out of place;
* `Packed`: the columns are packed once each, apart, aligned and within the capacity;
* `selects`: a member is evaluated through its group;
* `variableColumnGroups_packed`: all of this for every inventory.
-/

namespace Verathos.ColumnGroups

open Multilinear Pcs Merkle
open FirstFit (Bin Packing firstFit firstFit_packing dvd_sum_of_sorted)
open StableSort (sortBy)

/-! ## Members -/

/-- Members that lie one after the other from an offset on, each at a multiple of its size. -/
structure Laid (start : ℕ) (items : List (String × ℕ)) (members : List VariableColumnMemberPlan) :
    Prop where
  items_eq : members.map (fun member => (member.tag, member.cellCount)) = items
  bounds : ∀ member ∈ members, start ≤ member.offset ∧
    member.offset + member.cellCount ≤ start + (items.map Prod.snd).sum
  aligned : ∀ member ∈ members, member.cellCount ∣ member.offset
  disjoint : members.Pairwise fun a b => a.offset + a.cellCount ≤ b.offset

/-- The bits of an index that are left over after those of a member. -/
def blockBits (groupVariables : ℕ) (member : VariableColumnMemberPlan) : List ℤ :=
  (List.range (groupVariables - (member.cellCount.size - 1))).map fun bit =>
    (((member.offset >>> (member.cellCount.size - 1) >>> bit) &&& 1 : ℕ) : ℤ)

section Members

variable {groupVariables start : ℕ} {items : List (String × ℕ)}
  {members : List VariableColumnMemberPlan}

theorem memberPlans_cons_eq_ok {item : String × ℕ} :
    memberPlans groupVariables start (item :: items) = .ok members ↔
      item.2 ∣ start ∧ ∃ rest,
        memberPlans groupVariables (start + item.2) items = .ok rest ∧
          members = ⟨item.1, item.2, start,
            blockBits groupVariables ⟨item.1, item.2, start, []⟩⟩ :: rest := by
  simp only [memberPlans, bind_eq_ok, raiseIf_eq_ok, exists_const, not_not, pure_eq_ok,
    Nat.dvd_iff_mod_eq_zero, eq_comm (a := members), blockBits]

theorem memberPlans_spec (h : memberPlans groupVariables start items = .ok members) :
    Laid start items members ∧
      ∀ member ∈ members, member.blockPoint = blockBits groupVariables member := by
  induction items generalizing start members with
  | nil =>
    obtain rfl : [] = members := Except.ok.inj h
    exact ⟨⟨rfl, by simp, by simp, List.Pairwise.nil⟩, by simp⟩
  | cons item items ih =>
    obtain ⟨hdvd, rest, hrest, rfl⟩ := memberPlans_cons_eq_ok.mp h
    obtain ⟨hlaid, hblocks⟩ := ih hrest
    refine ⟨⟨?_, ?_, ?_, ?_⟩, ?_⟩
    · rw [List.map_cons, hlaid.items_eq]
    · rw [List.forall_mem_cons, List.map_cons, List.sum_cons]
      refine ⟨⟨le_rfl, by simp⟩, fun member hmember => ?_⟩
      have hbounds := hlaid.bounds member hmember
      omega
    · exact List.forall_mem_cons.mpr ⟨hdvd, hlaid.aligned⟩
    · exact List.Pairwise.cons (fun member hmember => (hlaid.bounds member hmember).1)
        hlaid.disjoint
    · exact List.forall_mem_cons.mpr ⟨rfl, hblocks⟩

theorem memberPlans_complete
    (h : ∀ before item after, items = before ++ item :: after →
      item.2 ∣ start + (before.map Prod.snd).sum) :
    ∃ members, memberPlans groupVariables start items = .ok members := by
  induction items generalizing start with
  | nil => exact ⟨[], rfl⟩
  | cons item items ih =>
    have hdivides : ∀ before next after, items = before ++ next :: after →
        next.2 ∣ start + item.2 + (before.map Prod.snd).sum := by
      intro before next after hitems
      have hdvd := h (item :: before) next after (by rw [hitems, List.cons_append])
      rwa [List.map_cons, List.sum_cons, ← add_assoc] at hdvd
    obtain ⟨rest, hrest⟩ := ih hdivides
    exact ⟨_, memberPlans_cons_eq_ok.mpr
      ⟨by simpa using h [] item items rfl, rest, hrest, rfl⟩⟩

theorem getD_flatMap_members (h : memberPlans groupVariables start items = .ok members)
    {cells : VariableColumnMemberPlan → List ℤ}
    (hcells : ∀ member ∈ members, (cells member).length = member.cellCount)
    {member : VariableColumnMemberPlan} (hmember : member ∈ members) {i : ℕ}
    (hi : i < member.cellCount) (padding : List ℤ) :
    (members.flatMap cells ++ padding).getD (member.offset - start + i) 0 =
      (cells member).getD i 0 := by
  induction items generalizing start members with
  | nil =>
    obtain rfl : [] = members := Except.ok.inj h
    cases hmember
  | cons item items ih =>
    obtain ⟨-, rest, hrest, rfl⟩ := memberPlans_cons_eq_ok.mp h
    rw [List.forall_mem_cons] at hcells
    rw [List.flatMap_cons, List.append_assoc]
    rcases List.mem_cons.mp hmember with rfl | hmember
    · rw [Nat.sub_self, zero_add, List.getD_append _ _ _ _ (hcells.1.symm ▸ hi)]
    · have hstart := ((memberPlans_spec hrest).1.bounds member hmember).1
      rw [List.getD_append_right _ _ _ _ (by rw [hcells.1]; simp only; omega), hcells.1,
        ← ih hrest hcells.2 hmember]
      congr 1
      simp only
      omega

theorem length_flatMap_members {cells : VariableColumnMemberPlan → List ℤ}
    (hcells : ∀ member ∈ members, (cells member).length = member.cellCount) :
    (members.flatMap cells).length = (members.map VariableColumnMemberPlan.cellCount).sum := by
  rw [List.length_flatMap]
  exact congrArg List.sum (List.map_congr_left hcells)

end Members

/-! ## Groups -/

section Group

variable {sha256 : Bytes → Digest} {tileDigest : Bytes} {groupTagPrefix : String}
  {groupIndex : ℕ} {bin : Bin (String × ℕ)} {plan : VariableColumnGroupPlan}

theorem groupPlan_eq_ok (h : groupPlan sha256 tileDigest groupTagPrefix groupIndex bin = .ok plan) :
    memberPlans (bin.2 - 1).size 0 bin.1 = .ok plan.members ∧
      plan.cellCount = 2 ^ (bin.2 - 1).size := by
  simp only [groupPlan, bind_eq_ok, raiseIf_eq_ok, exists_const, pure_eq_ok, Nat.one_shiftLeft,
    Nat.size_pow, Nat.add_sub_cancel] at h
  obtain ⟨-, members, hmembers, rfl⟩ := h
  exact ⟨hmembers, rfl⟩

theorem le_cellCount {used cap : ℕ} (hused : 0 < used) (hcap : cap.isPowerOfTwo)
    (hle : used ≤ cap) : used ≤ 2 ^ (used - 1).size ∧ 2 ^ (used - 1).size ≤ cap := by
  obtain ⟨c, rfl⟩ := hcap
  refine ⟨?_, Nat.pow_le_pow_right two_pos (Nat.size_le.mpr (by omega))⟩
  have hlt := Nat.lt_size_self (used - 1)
  omega

theorem toField_blockBits (groupVariables : ℕ) (member : VariableColumnMemberPlan) :
    toField (blockBits groupVariables member) =
      bitPoint (groupVariables - (member.cellCount.size - 1))
        (member.offset >>> (member.cellCount.size - 1)) := by
  rw [blockBits]
  generalize groupVariables - (member.cellCount.size - 1) = n
  generalize member.offset >>> (member.cellCount.size - 1) = k
  induction n generalizing k with
  | zero => rfl
  | succ n ih =>
    rw [List.range_succ_eq_map, List.map_cons, List.map_map, toField_cons, bitPoint, ← ih]
    congr 1
    · rw [Nat.shiftRight_zero, Nat.and_one_is_mod]
      rcases Nat.mod_two_eq_zero_or_one k with hbit | hbit <;> simp [hbit]
    · simp only [Function.comp_def, Nat.succ_eq_add_one, Nat.shiftRight_succ_inside]

theorem selects (h : groupPlan sha256 tileDigest groupTagPrefix groupIndex bin = .ok plan)
    (hused : bin.2 = (bin.1.map Prod.snd).sum)
    (hsizes : ∀ item ∈ bin.1, item.2.isPowerOfTwo) {values : String → List ℤ}
    (hvalues : ∀ item ∈ bin.1, (values item.1).length = item.2)
    {member : VariableColumnMemberPlan} (hmember : member ∈ plan.members) {point : List ℤ}
    (hpoint : point.length = member.cellCount.size - 1) :
    multilinearExtension (concatValues plan values) (point ++ member.blockPoint) =
      multilinearExtension ((values member.tag).map unsignedWord) point := by
  obtain ⟨hmembers, hcells⟩ := groupPlan_eq_ok h
  obtain ⟨hlaid, hblocks⟩ := memberPlans_spec hmembers
  have hitem : ∀ m ∈ plan.members, (m.tag, m.cellCount) ∈ bin.1 := by
    intro m hm
    rw [← hlaid.items_eq]
    exact List.mem_map_of_mem hm
  obtain ⟨v, hv⟩ := hsizes _ (hitem member hmember)
  change member.cellCount = 2 ^ v at hv
  have hsize : member.cellCount.size - 1 = v := by rw [hv, Nat.size_pow, Nat.add_sub_cancel]
  -- the block of the member is one of the blocks of its size in the group
  obtain ⟨k, hk⟩ := hlaid.aligned member hmember
  have hbounds := (hlaid.bounds member hmember).2
  rw [zero_add, ← hused] at hbounds
  have hlt := Nat.lt_size_self (bin.2 - 1)
  have hpos : 0 < member.cellCount := hv ▸ Nat.two_pow_pos v
  have hshift : member.offset >>> v = k := by
    rw [Nat.shiftRight_eq_div_pow, hk, hv, Nat.mul_div_cancel_left _ (Nat.two_pow_pos v)]
  have hblock : k < 2 ^ ((bin.2 - 1).size - v) := by
    have hgroup : 2 ^ v * k + 2 ^ v ≤ 2 ^ (bin.2 - 1).size := by
      rw [← hv, ← hk]
      omega
    have hle : v ≤ (bin.2 - 1).size := by
      refine (Nat.pow_le_pow_iff_right one_lt_two).mp (le_trans ?_ hgroup)
      exact Nat.le_add_left _ _
    obtain ⟨d, hd⟩ := Nat.exists_eq_add_of_le hle
    rw [hd, pow_add] at hgroup
    rw [hd, Nat.add_sub_cancel_left]
    nlinarith [Nat.two_pow_pos v]
  refine Canonical.ext (canonical_emod _) (canonical_emod _) ?_
  rw [intCast_multilinearExtension, intCast_multilinearExtension, toField_append,
    hblocks member hmember, toField_blockBits, hsize, hshift, mle_append_bitPoint hblock]
  refine inner_congr (fun i hi => ?_) fun _ _ => rfl
  rw [length_toField, hpoint, hsize] at hi ⊢
  have hlengths : ∀ m ∈ plan.members,
      ((values m.tag).map unsignedWord).length = m.cellCount := by
    intro m hm
    rw [List.length_map, hvalues _ (hitem m hm)]
  have hcell := getD_flatMap_members hmembers hlengths hmember (hi.trans_eq hv.symm)
  simp only [Nat.sub_zero, hk, hv] at hcell
  exact congrArg (Int.cast : ℤ → F) (hcell _)

theorem length_concatValues
    (h : groupPlan sha256 tileDigest groupTagPrefix groupIndex bin = .ok plan)
    (hused : bin.2 = (bin.1.map Prod.snd).sum) {values : String → List ℤ}
    (hvalues : ∀ item ∈ bin.1, (values item.1).length = item.2) :
    (concatValues plan values).length = plan.cellCount := by
  obtain ⟨hmembers, hcells⟩ := groupPlan_eq_ok h
  have hitems := (memberPlans_spec hmembers).1.items_eq
  have hlengths : ∀ m ∈ plan.members,
      ((values m.tag).map unsignedWord).length = m.cellCount := by
    intro m hm
    rw [List.length_map]
    exact hvalues (m.tag, m.cellCount) (hitems ▸ List.mem_map_of_mem hm)
  have hactive := length_flatMap_members hlengths
  have hsum : (plan.members.map VariableColumnMemberPlan.cellCount).sum = bin.2 := by
    rw [hused, ← hitems, List.map_map]
    rfl
  have hlt := Nat.lt_size_self (bin.2 - 1)
  rw [concatValues, List.length_append, List.length_replicate, hactive, hsum, hcells]
  omega

end Group

/-! ## Inventories -/

/-- The columns of a plan with their sizes. -/
def VariableColumnGroupPlan.items (plan : VariableColumnGroupPlan) : List (String × ℕ) :=
  plan.members.map fun member => (member.tag, member.cellCount)

/-- The columns are packed once each, apart, aligned and within the capacity. -/
structure Packed (orderedSizes : List (String × ℕ)) (maxGroupCells : ℕ)
    (plans : List VariableColumnGroupPlan) : Prop where
  perm : (plans.flatMap VariableColumnGroupPlan.items).Perm orderedSizes
  once : ∀ item ∈ orderedSizes, ∃! g : ℕ, ∃ plan, plans[g]? = some plan ∧
    item.1 ∈ plan.members.map VariableColumnMemberPlan.tag
  disjoint : ∀ plan ∈ plans, plan.members.Pairwise fun a b => a.offset + a.cellCount ≤ b.offset
  within : ∀ plan ∈ plans, ∀ member ∈ plan.members,
    member.offset + member.cellCount ≤ plan.cellCount
  aligned : ∀ plan ∈ plans, ∀ member ∈ plan.members, member.cellCount ∣ member.offset
  capacity : ∀ plan ∈ plans, plan.cellCount ≤ maxGroupCells

variable {sha256 : Bytes → Digest} {tileDigest : Bytes} {groupTagPrefix : String}
  {orderedSizes : List (String × ℕ)} {maxGroupCells : ℕ} {plans : List VariableColumnGroupPlan}

theorem checkParameters_spec
    (h : Accepts (checkParameters tileDigest groupTagPrefix maxGroupCells)) :
    maxGroupCells.isPowerOfTwo := by
  obtain ⟨_, h⟩ := h
  simp only [checkParameters, raiseIf_eq_ok, not_or, not_not] at h
  exact (Nat.and_sub_one_eq_zero_iff_isPowerOfTwo (by omega)).mp h.2.2.2.2.2

theorem checkInventory_spec (h : Accepts (checkInventory orderedSizes maxGroupCells)) :
    (orderedSizes.map Prod.fst).Nodup ∧
      ∀ item ∈ orderedSizes, 0 < item.2 ∧ item.2 ≤ maxGroupCells ∧ item.2.isPowerOfTwo := by
  obtain ⟨_, h⟩ := h
  simp only [checkInventory, raiseIf_eq_ok, not_or, not_not, not_exists, not_and] at h
  obtain ⟨-, -, hnodup, hsizes⟩ := h
  refine ⟨hnodup, fun item hitem => ?_⟩
  obtain ⟨htwo, hcap, hpower⟩ := hsizes item hitem
  exact ⟨by omega, by omega, (Nat.and_sub_one_eq_zero_iff_isPowerOfTwo (by omega)).mp hpower⟩

theorem dvd_of_isPowerOfTwo {a b : ℕ} (ha : a.isPowerOfTwo) (hb : b.isPowerOfTwo) (h : b ≤ a) :
    b ∣ a := by
  obtain ⟨m, rfl⟩ := ha
  obtain ⟨n, rfl⟩ := hb
  exact pow_dvd_pow 2 ((Nat.pow_le_pow_iff_right one_lt_two).mp h)

theorem pairwise_sortBy_packingKey
    (h : ∀ item ∈ orderedSizes, item.2.isPowerOfTwo) :
    (sortBy packingKey orderedSizes).Pairwise fun a b => b.2 ∣ a.2 := by
  refine (StableSort.pairwise_sortBy packingKey orderedSizes).imp_of_mem fun ha hb hkey => ?_
  refine dvd_of_isPowerOfTwo (h _ ((StableSort.mem_sortBy _).mp ha))
    (h _ ((StableSort.mem_sortBy _).mp hb)) ?_
  rcases (Prod.Lex.toLex_le_toLex).mp hkey with hlt | ⟨heq, -⟩
  · simpa using hlt.le
  · simpa using heq.le

/-- The bins of an inventory. -/
def packingBins (orderedSizes : List (String × ℕ)) (maxGroupCells : ℕ) :
    List (Bin (String × ℕ)) :=
  firstFit maxGroupCells Prod.snd (sortBy packingKey orderedSizes)

theorem packingBins_packing (h : Accepts (checkInventory orderedSizes maxGroupCells)) :
    Packing maxGroupCells Prod.snd (sortBy packingKey orderedSizes)
      (packingBins orderedSizes maxGroupCells) :=
  firstFit_packing fun item hitem =>
    ((checkInventory_spec h).2 item ((StableSort.mem_sortBy _).mp hitem)).2.1

theorem memberPlans_bin (h : Accepts (checkInventory orderedSizes maxGroupCells))
    {bin : Bin (String × ℕ)} (hbin : bin ∈ packingBins orderedSizes maxGroupCells)
    (groupVariables : ℕ) : ∃ members, memberPlans groupVariables 0 bin.1 = .ok members := by
  have hsorted := (pairwise_sortBy_packingKey fun item hitem =>
    ((checkInventory_spec h).2 item hitem).2.2).sublist ((packingBins_packing h).sublist bin hbin)
  refine memberPlans_complete fun before item after hitems => ?_
  rw [zero_add]
  exact dvd_sum_of_sorted (hitems ▸ hsorted)

theorem plan_eq_ok
    (h : planSuccinctVariableColumnGroups sha256 tileDigest groupTagPrefix orderedSizes
      maxGroupCells = .ok plans) :
    Accepts (checkParameters tileDigest groupTagPrefix maxGroupCells) ∧
      Accepts (checkInventory orderedSizes maxGroupCells) ∧
      List.Forall₂ (fun entry plan =>
        groupPlan sha256 tileDigest groupTagPrefix entry.2 entry.1 = .ok plan)
        (packingBins orderedSizes maxGroupCells).zipIdx plans := by
  simp only [planSuccinctVariableColumnGroups, bind_eq_ok, mapM_eq_ok] at h
  obtain ⟨_, hparameters, _, hinventory, hplans⟩ := h
  exact ⟨⟨_, hparameters⟩, ⟨_, hinventory⟩, hplans⟩

theorem map_members_eq
    (h : List.Forall₂ (fun entry plan =>
      groupPlan sha256 tileDigest groupTagPrefix entry.2 entry.1 = .ok plan)
      (packingBins orderedSizes maxGroupCells).zipIdx plans) :
    plans.map VariableColumnGroupPlan.items =
      (packingBins orderedSizes maxGroupCells).map Prod.fst := by
  have hitems : List.Forall₂ Eq
      ((packingBins orderedSizes maxGroupCells).zipIdx.map fun entry => entry.1.1)
      (plans.map VariableColumnGroupPlan.items) := by
    rw [List.forall₂_map_left_iff, List.forall₂_map_right_iff]
    refine h.imp fun entry plan hplan => ?_
    exact (memberPlans_spec (groupPlan_eq_ok hplan).1).1.items_eq.symm
  rw [List.forall₂_eq_eq_eq] at hitems
  rw [← hitems]
  conv_rhs => rw [← List.zipIdx_map_fst 0 (packingBins orderedSizes maxGroupCells), List.map_map]
  rfl

theorem exists_bin
    (h : List.Forall₂ (fun entry plan =>
      groupPlan sha256 tileDigest groupTagPrefix entry.2 entry.1 = .ok plan)
      (packingBins orderedSizes maxGroupCells).zipIdx plans) {plan : VariableColumnGroupPlan}
    (hplan : plan ∈ plans) :
    ∃ bin ∈ packingBins orderedSizes maxGroupCells, ∃ groupIndex,
      groupPlan sha256 tileDigest groupTagPrefix groupIndex bin = .ok plan := by
  obtain ⟨g, hg, rfl⟩ := List.mem_iff_getElem.mp hplan
  have hg' : g < (packingBins orderedSizes maxGroupCells).zipIdx.length := h.length_eq ▸ hg
  have hbin := List.mem_map_of_mem (f := Prod.fst) (List.getElem_mem hg')
  rw [List.zipIdx_map_fst] at hbin
  exact ⟨_, hbin, _, h.get hg' hg⟩

theorem existsUnique_plan
    (hperm : (plans.flatMap VariableColumnGroupPlan.items).Perm orderedSizes)
    (hnodup : (orderedSizes.map Prod.fst).Nodup) {item : String × ℕ} (hitem : item ∈ orderedSizes) :
    ∃! g : ℕ, ∃ plan, plans[g]? = some plan ∧
      item.1 ∈ plan.members.map VariableColumnMemberPlan.tag := by
  have htags : (plans.flatMap fun plan =>
      plan.members.map VariableColumnMemberPlan.tag).Nodup := by
    have h := (hperm.map Prod.fst).nodup_iff.mpr hnodup
    simpa [List.map_flatMap, Function.comp_def, VariableColumnGroupPlan.items] using h
  obtain ⟨plan, hplan, hheld⟩ := List.mem_flatMap.mp (hperm.mem_iff.mpr hitem)
  obtain ⟨member, hmember, rfl⟩ := List.mem_map.mp hheld
  obtain ⟨g, hg⟩ := List.mem_iff_getElem?.mp hplan
  refine ⟨g, ⟨plan, hg, List.mem_map_of_mem hmember⟩, ?_⟩
  rintro g' ⟨plan', hg', hmember'⟩
  -- two plans with one tag would repeat it
  have hapart := List.pairwise_iff_getElem.mp (List.nodup_flatMap.mp htags).2
  obtain ⟨hlt, rfl⟩ := List.getElem?_eq_some_iff.mp hg
  obtain ⟨hlt', rfl⟩ := List.getElem?_eq_some_iff.mp hg'
  rcases lt_trichotomy g' g with hless | heq | hless
  · exact absurd (List.mem_map_of_mem hmember) (hapart g' g hlt' hlt hless hmember')
  · exact heq
  · exact absurd hmember' (hapart g g' hlt hlt' hless (List.mem_map_of_mem hmember))

theorem packed
    (h : planSuccinctVariableColumnGroups sha256 tileDigest groupTagPrefix orderedSizes
      maxGroupCells = .ok plans) : Packed orderedSizes maxGroupCells plans := by
  obtain ⟨hparameters, hinventory, hplans⟩ := plan_eq_ok h
  have hpacking := packingBins_packing hinventory
  have hsizes := (checkInventory_spec hinventory).2
  have hperm : (plans.flatMap VariableColumnGroupPlan.items).Perm orderedSizes := by
    rw [List.flatMap_def, map_members_eq hplans, ← List.flatMap_def]
    exact hpacking.perm.trans (StableSort.sortBy_perm _ _)
  have hbin : ∀ plan ∈ plans, ∃ bin : Bin (String × ℕ), Laid 0 bin.1 plan.members ∧
      bin.2 = (bin.1.map Prod.snd).sum ∧ bin.2 ≤ plan.cellCount ∧
      plan.cellCount ≤ maxGroupCells := by
    intro plan hplan
    obtain ⟨bin, hbin, groupIndex, hgroup⟩ := exists_bin hplans hplan
    obtain ⟨hmembers, hcells⟩ := groupPlan_eq_ok hgroup
    have hused : 0 < bin.2 := by
      obtain ⟨item, hitem⟩ := List.exists_mem_of_ne_nil _ (hpacking.ne_nil bin hbin)
      have hsorted := (hpacking.sublist bin hbin).mem hitem
      rw [hpacking.used_eq bin hbin]
      exact ((hsizes item ((StableSort.mem_sortBy _).mp hsorted)).1).trans_le
        (List.single_le_sum (by simp) _ (List.mem_map_of_mem hitem))
    have hcount := le_cellCount hused (checkParameters_spec hparameters)
      (hpacking.used_le bin hbin)
    rw [← hcells] at hcount
    exact ⟨bin, (memberPlans_spec hmembers).1, hpacking.used_eq bin hbin, hcount⟩
  refine ⟨hperm, fun item hitem => ?_, fun plan hplan => ?_, fun plan hplan member hmember => ?_,
    fun plan hplan member hmember => ?_, fun plan hplan => ?_⟩
  · exact existsUnique_plan hperm (checkInventory_spec hinventory).1 hitem
  · obtain ⟨bin, hlaid, -⟩ := hbin plan hplan
    exact hlaid.disjoint
  · obtain ⟨bin, hlaid, hused, hle, -⟩ := hbin plan hplan
    have hbounds := (hlaid.bounds member hmember).2
    omega
  · obtain ⟨bin, hlaid, -⟩ := hbin plan hplan
    exact hlaid.aligned member hmember
  · obtain ⟨bin, -, -, -, hcapacity⟩ := hbin plan hplan
    exact hcapacity

theorem plan_perm {orderedSizes' : List (String × ℕ)} (h : orderedSizes'.Perm orderedSizes) :
    planSuccinctVariableColumnGroups sha256 tileDigest groupTagPrefix orderedSizes'
        maxGroupCells =
      planSuccinctVariableColumnGroups sha256 tileDigest groupTagPrefix orderedSizes
        maxGroupCells := by
  have hinventory : checkInventory orderedSizes' maxGroupCells =
      checkInventory orderedSizes maxGroupCells := by
    unfold checkInventory raiseIf
    refine if_congr ?_ rfl rfl
    have hnil : orderedSizes' = [] ↔ orderedSizes = [] := by
      constructor <;> rintro rfl
      · exact h.nil_eq.symm
      · exact h.eq_nil
    simp only [h.mem_iff, (h.map Prod.fst).nodup_iff, hnil]
  have hsort : sortBy packingKey orderedSizes' = sortBy packingKey orderedSizes := by
    have hinjective : Function.Injective packingKey := by
      intro a b hab
      obtain ⟨hsize, htag⟩ := Prod.mk.inj (toLex.injective hab)
      exact Prod.ext htag (by simpa using hsize)
    exact hinjective.list_map (StableSort.map_key_sortBy packingKey (h.map packingKey))
  simp only [planSuccinctVariableColumnGroups, hinventory, hsort]

theorem plan_ne_alignmentError :
    planSuccinctVariableColumnGroups sha256 tileDigest groupTagPrefix orderedSizes
      maxGroupCells ≠ .error alignmentError := by
  intro h
  simp only [planSuccinctVariableColumnGroups, bind_eq_error] at h
  rcases h with hparameters | ⟨_, -, hinventory | ⟨_, hinventory, hplans⟩⟩
  · exact absurd (raiseIf_eq_error.mp hparameters).2 (by decide)
  · exact absurd (raiseIf_eq_error.mp hinventory).2 (by decide)
  · obtain ⟨⟨bin, groupIndex⟩, hentry, hgroup⟩ := exists_of_mapM_eq_error hplans
    have hbin := List.mem_map_of_mem (f := Prod.fst) hentry
    rw [List.zipIdx_map_fst] at hbin
    obtain ⟨members, hmembers⟩ := memberPlans_bin ⟨_, hinventory⟩ hbin
      ((1 <<< (bin.2 - 1).size).size - 1)
    simp only [groupPlan, bind_eq_error, hmembers] at hgroup
    rcases hgroup with hindex | ⟨_, -, hloop | ⟨_, -, hreturn⟩⟩
    · exact absurd (raiseIf_eq_error.mp hindex).2 (by decide)
    · cases hloop
    · cases hreturn

/-- For every inventory: no member is out of place, the order does not matter, and the plans pack
the columns, so that every member is evaluated through its group at its block point. -/
theorem variableColumnGroups_packed (sha256 : Bytes → Digest) (tileDigest : Bytes)
    (groupTagPrefix : String) (orderedSizes : List (String × ℕ)) (maxGroupCells : ℕ) :
    let plan := fun sizes =>
      planSuccinctVariableColumnGroups sha256 tileDigest groupTagPrefix sizes maxGroupCells
    plan orderedSizes ≠ .error alignmentError ∧
      (∀ orderedSizes', orderedSizes'.Perm orderedSizes →
        plan orderedSizes' = plan orderedSizes) ∧
      ∀ plans, plan orderedSizes = .ok plans → Packed orderedSizes maxGroupCells plans ∧
        ∀ values : String → List ℤ,
          (∀ item ∈ orderedSizes, (values item.1).length = item.2) →
          ∀ plan ∈ plans, (concatValues plan values).length = plan.cellCount ∧
            ∀ member ∈ plan.members, ∀ point : List ℤ,
              point.length = member.cellCount.size - 1 →
              multilinearExtension (concatValues plan values) (point ++ member.blockPoint) =
                multilinearExtension ((values member.tag).map unsignedWord) point := by
  intro plan
  refine ⟨plan_ne_alignmentError, fun _ => plan_perm, fun plans hplans => ⟨packed hplans, ?_⟩⟩
  intro values hvalues plan hplan
  obtain ⟨-, hinventory, hgroups⟩ := plan_eq_ok hplans
  obtain ⟨bin, hbin, groupIndex, hgroup⟩ := exists_bin hgroups hplan
  have hpacking := packingBins_packing hinventory
  have hitem : ∀ item ∈ bin.1, item ∈ orderedSizes := fun item hitem =>
    (StableSort.mem_sortBy _).mp ((hpacking.sublist bin hbin).mem hitem)
  have hlengths : ∀ item ∈ bin.1, (values item.1).length = item.2 :=
    fun item h => hvalues item (hitem item h)
  refine ⟨length_concatValues hgroup (hpacking.used_eq bin hbin) hlengths, ?_⟩
  intro member hmember point hpoint
  exact selects hgroup (hpacking.used_eq bin hbin)
    (fun item h => ((checkInventory_spec hinventory).2 item (hitem item h)).2.2) hlengths hmember
    hpoint

theorem plan_complete (hparameters : Accepts (checkParameters tileDigest groupTagPrefix
      maxGroupCells)) (hinventory : Accepts (checkInventory orderedSizes maxGroupCells))
    (hlength : orderedSizes.length ≤ 2 ^ 32) :
    ∃ plans, planSuccinctVariableColumnGroups sha256 tileDigest groupTagPrefix orderedSizes
      maxGroupCells = .ok plans := by
  have hbins := (packingBins_packing hinventory).length_le
  rw [(StableSort.sortBy_perm _ _).length_eq] at hbins
  have hgroups : ∃ plans, (packingBins orderedSizes maxGroupCells).zipIdx.mapM
      (fun entry => groupPlan sha256 tileDigest groupTagPrefix entry.2 entry.1) = .ok plans := by
    refine exists_mapM_iff.mpr ?_
    rintro ⟨bin, groupIndex⟩ hentry
    have hbin := List.mem_map_of_mem (f := Prod.fst) hentry
    rw [List.zipIdx_map_fst] at hbin
    obtain ⟨members, hmembers⟩ := memberPlans_bin hinventory hbin
      ((1 <<< (bin.2 - 1).size).size - 1)
    have hindex := (List.mem_zipIdx hentry).2.1
    simp only [groupPlan, bind_eq_ok, raiseIf_eq_ok, hmembers, exists_const, Except.ok.injEq,
      pure_eq_ok]
    exact ⟨_, by omega, members, rfl, rfl⟩
  obtain ⟨_, hparameters⟩ := hparameters
  obtain ⟨_, hinventory⟩ := hinventory
  obtain ⟨plans, hplans⟩ := hgroups
  refine ⟨plans, ?_⟩
  simp only [planSuccinctVariableColumnGroups, bind_eq_ok]
  exact ⟨_, hparameters, _, hinventory, hplans⟩

/-- Three columns of two sizes. -/
theorem variableColumnGroups_packed_three :
    ∃ plans, planSuccinctVariableColumnGroups (fun _ => Digest.zero) (List.replicate 32 0) "g"
        [("a", 2), ("b", 4), ("c", 2)] 8 = .ok plans ∧
      Packed [("a", 2), ("b", 4), ("c", 2)] 8 plans := by
  obtain ⟨plans, hplans⟩ : ∃ plans, planSuccinctVariableColumnGroups (fun _ => Digest.zero)
      (List.replicate 32 0) "g" [("a", 2), ("b", 4), ("c", 2)] 8 = .ok plans :=
    plan_complete (by decide +kernel) (by decide +kernel) (by decide)
  exact ⟨plans, hplans, ((variableColumnGroups_packed _ _ _ _ _).2.2 plans hplans).1⟩

end Verathos.ColumnGroups
