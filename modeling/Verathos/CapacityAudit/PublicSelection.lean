import Verathos.CapacityAudit.Selection
import Verathos.Lib.Sha256

/-!
# What a capacity-audit selection depends on

A validator selects among all slots that it knows, a miner asks for its own slot alone. Both get the
same answer when the answer depends on what the chain advertises, and a validator's answer is a list
that every validator gets when no order of its own shows in it.

* `selectCapacityAuditSlots_eq_ok`: the selection is a filter and a sort, when no two slots share an
  identifier;
* `forall_selectsExactly_iff`: the list is the same in every order exactly when no two slots have the
  same sort key;
* `forall_selected_eq_iff`: two records of a slot are selected alike exactly when their strings
  `group_key` name the same public tokens besides those of the metadata;
* `groupKey_selects`: a string `group_key` that selects a slot.
-/

namespace Verathos.CapacityAudit

open Receipts (utf8 utf8_injective structError packQ FitsQ packQ_eq_ok)

/-- What identifies a slot. -/
def identity (p : Platform) (slot : CapacitySlot) : ℤ × ℤ × String × ℤ :=
  (slot.chainId, slot.netuid, slot.addressLower p, slot.modelIndex)

/-- What the chain advertises of a slot. -/
def publicFields (slot : CapacitySlot) : ℤ × ℤ × String × ℤ × String × String :=
  (slot.chainId, slot.netuid, slot.address, slot.modelIndex, slot.endpoint, slot.modelId)

/-- The numbers of a slot fit the fields that are hashed. -/
def InRange (slot : CapacitySlot) : Prop :=
  (0 ≤ slot.chainId ∧ slot.chainId < 2 ^ 64) ∧ (0 ≤ slot.netuid ∧ slot.netuid < 2 ^ 64) ∧
    FitsQ slot.modelIndex

/-- The numbers of a slot fit and its endpoint can be parsed. -/
def Readable (p : Platform) (slot : CapacitySlot) : Prop :=
  InRange slot ∧ Accepts (p.hostname slot.endpoint)

/-- No two slots are sorted by the same key. -/
def NoTies (p : Platform) (slots : List CapacitySlot) : Prop :=
  ∀ a ∈ slots, ∀ b ∈ slots, sortKey p a = sortKey p b → a = b

/-- The identifiers of the slots have no collision. -/
def NoCollision (p : Platform) (sha256 : Bytes → Digest) (slots : List CapacitySlot) : Prop :=
  ∀ a ∈ slots, ∀ b ∈ slots, ∀ bytes bytes', slotPreimage p a = .ok bytes →
    slotPreimage p b = .ok bytes' → sha256 bytes = sha256 bytes' → bytes = bytes'

/-- No two slots have the same identity. -/
def Distinct (p : Platform) (slots : List CapacitySlot) : Prop := (slots.map (identity p)).Nodup

/-- The strings `group_key` of two records name the same public tokens besides those of the
metadata. -/
def SameExtra (p : Platform) (s s' : CapacitySlot) : Prop :=
  Readable p s → ∀ tokens, metadataTokens p s = .ok tokens → ∀ token, token ∉ tokens →
    (token ∈ stringTokens p s ↔ token ∈ stringTokens p s')

/-- The selection returns the selected slots, each once, whatever the order of the slots. -/
def SelectsExactly (p : Platform) (sha256 : Bytes → Digest) (slots : List CapacitySlot)
    (auditSeedHex : String) (cfg : CapacityAuditRuntimeConfig) : Prop :=
  ∃ selected, selectCapacityAuditSlots p sha256 slots auditSeedHex cfg = .ok selected ∧
    selected.Perm (slots.filter fun slot =>
      capacityAuditSlotSelected p sha256 slot auditSeedHex cfg = .ok true) ∧
    ∀ slots', slots'.Perm slots →
      selectCapacityAuditSlots p sha256 slots' auditSeedHex cfg = .ok selected

variable {p : Platform} {sha256 : Bytes → Digest} {slots : List CapacitySlot} {slot : CapacitySlot}
  {auditSeedHex : String} {cfg : CapacityAuditRuntimeConfig}

theorem Distinct.perm {slots' : List CapacitySlot} (h : Distinct p slots)
    (hperm : slots'.Perm slots) : Distinct p slots' :=
  (hperm.map (identity p)).nodup_iff.mpr h

theorem NoCollision.perm {slots' : List CapacitySlot} (h : NoCollision p sha256 slots)
    (hperm : slots'.Perm slots) : NoCollision p sha256 slots' := by
  intro a ha b hb
  exact h a (hperm.mem_iff.mp ha) b (hperm.mem_iff.mp hb)

/-! ## Identifiers -/

theorem u64_eq_ok {value : ℤ} {bytes : Bytes} :
    u64 value = .ok bytes ↔
      (0 ≤ value ∧ value < 2 ^ 64) ∧ bytes = BigEndian.toBytes 8 value.toNat := by
  simp only [u64, bind_eq_ok, raiseIf_eq_ok, not_not, pure_eq_ok, exists_const]
  rw [@eq_comm _ bytes]

/-- The layout of what `slot_id` hashes. -/
def layout (p : Platform) (slot : CapacitySlot) : Bytes :=
  asciiBytes "VERATHOS_CAPACITY_SLOT_V1" ++ (BigEndian.toBytes 8 slot.chainId.toNat ++
    (BigEndian.toBytes 8 slot.netuid.toNat ++
      (utf8 (slot.addressLower p) ++ BigEndian.toBytesSigned 8 slot.modelIndex)))

theorem slotPreimage_eq_ok {bytes : Bytes} :
    slotPreimage p slot = .ok bytes ↔ InRange slot ∧ bytes = layout p slot := by
  simp only [slotPreimage, bind_eq_ok, u64_eq_ok, packQ_eq_ok, pure_eq_ok, InRange]
  constructor
  · rintro ⟨_, ⟨hchain, rfl⟩, _, ⟨hnet, rfl⟩, _, ⟨hindex, rfl⟩, rfl⟩
    exact ⟨⟨hchain, hnet, hindex⟩, rfl⟩
  · rintro ⟨⟨hchain, hnet, hindex⟩, rfl⟩
    exact ⟨_, ⟨hchain, rfl⟩, _, ⟨hnet, rfl⟩, _, ⟨hindex, rfl⟩, rfl⟩

/-- The layout determines the identity: only the address has no fixed width. -/
theorem identity_eq_of_layout_eq {a b : CapacitySlot} (ha : InRange a) (hb : InRange b)
    (h : layout p a = layout p b) : identity p a = identity p b := by
  obtain ⟨hchain, hrest⟩ := List.append_inj (List.append_cancel_left h) (by simp)
  obtain ⟨hnet, hrest⟩ := List.append_inj hrest (by simp)
  obtain ⟨haddress, hindex⟩ := List.append_inj' hrest (by simp)
  have hchain' : a.chainId = b.chainId := by
    have heq := BigEndian.toBytes_inj (by have := ha.1; omega) (by have := hb.1; omega) hchain
    have := ha.1
    have := hb.1
    omega
  have hnet' : a.netuid = b.netuid := by
    have heq := BigEndian.toBytes_inj (by have := ha.2.1; omega) (by have := hb.2.1; omega) hnet
    have := ha.2.1
    have := hb.2.1
    omega
  have hindex' : a.modelIndex = b.modelIndex := by
    obtain ⟨-, -, ha₁, ha₂⟩ := ha
    obtain ⟨-, -, hb₁, hb₂⟩ := hb
    exact BigEndian.toBytesSigned_inj (by omega) (by omega) hindex
  rw [identity, identity, hchain', hnet', hindex', utf8_injective haddress]

theorem slotId_eq_ok {identifier : String} :
    slotId p sha256 slot = .ok identifier ↔
      InRange slot ∧ identifier = Hex.toText (sha256 (layout p slot)).bytes := by
  simp only [slotId, bind_eq_ok, slotPreimage_eq_ok, pure_eq_ok]
  constructor
  · rintro ⟨_, ⟨hrange, rfl⟩, rfl⟩
    exact ⟨hrange, rfl⟩
  · rintro ⟨hrange, rfl⟩
    exact ⟨_, ⟨hrange, rfl⟩, rfl⟩

theorem nodup_identifiers (hdistinct : Distinct p slots) (hcollision : NoCollision p sha256 slots)
    (hrange : ∀ slot ∈ slots, InRange slot) :
    (slots.map fun slot => Hex.toText (sha256 (layout p slot)).bytes).Nodup := by
  refine List.Nodup.map_on ?_ hdistinct.of_map
  intro a ha b hb heq
  have hdigest : sha256 (layout p a) = sha256 (layout p b) := by
    apply Digest.ext
    have hread := congrArg Hex.ofText heq
    rwa [Hex.ofText_toText, Hex.ofText_toText, Option.some.injEq] at hread
  have hlayout := hcollision a ha b hb _ _ (slotPreimage_eq_ok.mpr ⟨hrange a ha, rfl⟩)
    (slotPreimage_eq_ok.mpr ⟨hrange b hb, rfl⟩) hdigest
  exact List.inj_on_of_nodup_map hdistinct ha hb
    (identity_eq_of_layout_eq (hrange a ha) (hrange b hb) hlayout)

/-! ## The selection is a filter -/

theorem filterSlots_eq_ok {predicate : CapacitySlot → Result Bool} {kept : List CapacitySlot} :
    filterSlots predicate slots = .ok kept ↔
      (∀ slot ∈ slots, Accepts (predicate slot)) ∧
        kept = slots.filter fun slot => predicate slot = .ok true := by
  induction slots generalizing kept with
  | nil =>
    rw [filterSlots, pure_eq_ok]
    simp [eq_comm]
  | cons slot slots ih =>
    simp only [filterSlots, bind_eq_ok, pure_eq_ok, ih, List.forall_mem_cons]
    constructor
    · rintro ⟨selected, hselected, rest, ⟨hrest, rfl⟩, rfl⟩
      refine ⟨⟨⟨selected, hselected⟩, hrest⟩, ?_⟩
      cases selected <;> simp [hselected]
    · rintro ⟨⟨⟨selected, hselected⟩, hrest⟩, rfl⟩
      refine ⟨selected, hselected, _, ⟨hrest, rfl⟩, ?_⟩
      cases selected <;> simp [hselected]

theorem selectCapacityAuditSlots_eq_ok (hdistinct : Distinct p slots)
    (hcollision : NoCollision p sha256 slots) {selected : List CapacitySlot} :
    selectCapacityAuditSlots p sha256 slots auditSeedHex cfg = .ok selected ↔
      (∀ slot ∈ slots, InRange slot) ∧
      (∀ slot ∈ slots, Accepts (capacityAuditSlotSelected p sha256 slot auditSeedHex cfg)) ∧
      selected = StableSort.sortBy (sortKey p) (slots.filter fun slot =>
        capacityAuditSlotSelected p sha256 slot auditSeedHex cfg = .ok true) := by
  have hpairs : ∀ slot pair, (do
      let identifier ← slotId p sha256 slot
      return (identifier, slot) : Result (String × CapacitySlot)) = .ok pair ↔
        InRange slot ∧ pair = (Hex.toText (sha256 (layout p slot)).bytes, slot) := by
    intro slot pair
    simp only [bind_eq_ok, slotId_eq_ok, pure_eq_ok]
    constructor
    · rintro ⟨_, ⟨hrange, rfl⟩, rfl⟩
      exact ⟨hrange, rfl⟩
    · rintro ⟨hrange, rfl⟩
      exact ⟨_, ⟨hrange, rfl⟩, rfl⟩
  unfold selectCapacityAuditSlots
  simp only [bind_eq_ok, pure_eq_ok, mapM_eq_ok_of_iff hpairs, filterSlots_eq_ok]
  have hvalues (hrange : ∀ slot ∈ slots, InRange slot) :
      (OrderedDict.ofList (slots.map fun slot =>
        (Hex.toText (sha256 (layout p slot)).bytes, slot))).entries.map Prod.snd = slots := by
    rw [OrderedDict.entries_ofList, List.map_map]
    · exact List.map_id _
    · rw [List.map_map]
      exact nodup_identifiers hdistinct hcollision hrange
  constructor
  · rintro ⟨_, ⟨hrange, rfl⟩, _, ⟨haccepts, rfl⟩, rfl⟩
    rw [hvalues hrange] at haccepts ⊢
    exact ⟨hrange, haccepts, rfl⟩
  · rintro ⟨hrange, haccepts, rfl⟩
    refine ⟨_, ⟨hrange, rfl⟩, _, ⟨?_, rfl⟩, ?_⟩
    · rw [hvalues hrange]
      exact haccepts
    · rw [hvalues hrange]

/-! ## The predicate -/

theorem accepts_metadataTokens_iff :
    Accepts (metadataTokens p slot) ↔ Accepts (p.hostname slot.endpoint) := by
  unfold metadataTokens publicGroupTokensFromMetadata buildCapacitySlotGroupKey
  constructor
  · rintro ⟨tokens, h⟩
    obtain ⟨key, hkey, -⟩ := bind_eq_ok.mp h
    obtain ⟨host, hhost, -⟩ := bind_eq_ok.mp hkey
    exact ⟨host, hhost⟩
  · rintro ⟨host, hhost⟩
    rw [hhost]
    exact ⟨_, rfl⟩

theorem capacitySlotGroupKeys_eq_ok {keys : List String} :
    capacitySlotGroupKeys p slot = .ok keys ↔ ∃ tokens, metadataTokens p slot = .ok tokens ∧
      keys = SortedSet.sortedSet (stringTokens p slot ++ tokens) := by
  simp only [capacitySlotGroupKeys, bind_eq_ok, pure_eq_ok, @eq_comm _ keys]

/-- The predicate on the identifier and the tokens of a slot. -/
def hits (p : Platform) (sha256 : Bytes → Digest) (auditSeedHex : String)
    (cfg : CapacityAuditRuntimeConfig) (identifier : String) (keys : List String) : Bool :=
  let target := selectionProbability p cfg
  let groupFraction := min 1 (max 0 cfg.groupStressFraction)
  0 < target &&
    (selectionHit p sha256 auditSeedHex "base" identifier
        (p.round (target * p.round (1 - groupFraction))) ||
      (0 < groupFraction && keys.any fun key =>
        selectionHit p sha256 auditSeedHex "group" key (min 1 (p.round (target * groupFraction)))))

theorem capacityAuditSlotSelected_eq (hrange : InRange slot) {tokens : List String}
    (htokens : metadataTokens p slot = .ok tokens) :
    capacityAuditSlotSelected p sha256 slot auditSeedHex cfg =
      .ok (hits p sha256 auditSeedHex cfg (Hex.toText (sha256 (layout p slot)).bytes)
        (SortedSet.sortedSet (stringTokens p slot ++ tokens))) := by
  have hidentifier : slotId p sha256 slot = .ok (Hex.toText (sha256 (layout p slot)).bytes) :=
    slotId_eq_ok.mpr ⟨hrange, rfl⟩
  have hkeys := capacitySlotGroupKeys_eq_ok.mpr ⟨tokens, htokens, rfl⟩
  unfold capacityAuditSlotSelected hits
  rw [hidentifier, hkeys]
  dsimp only
  generalize selectionProbability p cfg = target
  generalize min 1 (max 0 cfg.groupStressFraction) = groupFraction
  generalize SortedSet.sortedSet (stringTokens p slot ++ tokens) = keys
  by_cases htarget : target ≤ 0
  · rw [if_pos htarget, decide_eq_false (not_lt.mpr htarget), Bool.false_and]
    rfl
  · rw [if_neg htarget, decide_eq_true (not_le.mp htarget), Bool.true_and]
    change (if _ then _ else _) = _
    split_ifs with hbase
    · rw [hbase, Bool.true_or]
      rfl
    · rw [Bool.not_eq_true] at hbase
      rw [hbase, Bool.false_or]
      change (if _ then _ else _) = _
      split_ifs with hnone
      · rcases hnone with rfl | hgroup
        · rw [List.any_nil, Bool.and_false]
          rfl
        · rw [decide_eq_false (not_lt.mpr hgroup), Bool.false_and]
          rfl
      · rw [not_or, not_le] at hnone
        rw [decide_eq_true hnone.2, Bool.true_and]
        rfl

theorem Readable.accepts (h : Readable p slot) :
    Accepts (capacityAuditSlotSelected p sha256 slot auditSeedHex cfg) := by
  obtain ⟨tokens, htokens⟩ := accepts_metadataTokens_iff.mpr h.2
  exact ⟨_, capacityAuditSlotSelected_eq h.1 htokens⟩

/-! ## Floats -/

theorem Platform.round_one (p : Platform) : p.round 1 = 1 := by
  simpa using p.round_two_zpow 0 (by norm_num) (by norm_num)

theorem Platform.round_half (p : Platform) : p.round (1 / 2) = 1 / 2 := by
  have h := p.round_two_zpow (-1) (by norm_num) (by norm_num)
  rwa [show (2 : ℚ) ^ (-1 : ℤ) = 1 / 2 by norm_num] at h

theorem Platform.round_two_pow_255 (p : Platform) : p.round (2 ^ 255) = 2 ^ 255 := by
  exact_mod_cast p.round_two_zpow 255 (by norm_num) (by norm_num)

/-- The configuration that selects every slot by its identifier. -/
def everySlot : CapacityAuditRuntimeConfig where
  cohortFraction := 1
  windowsPerEpoch := 1
  maxDrainFraction := 0
  groupStressFraction := 0

/-- The configuration that selects by tokens alone, one in two. -/
def tokensOnly : CapacityAuditRuntimeConfig where
  cohortFraction := 1 / 2
  windowsPerEpoch := 1
  maxDrainFraction := 0
  groupStressFraction := 1

theorem selectionProbability_everySlot (p : Platform) : selectionProbability p everySlot = 1 := by
  norm_num [selectionProbability, everySlot, p.round_one]

theorem selectionProbability_tokensOnly (p : Platform) :
    selectionProbability p tokensOnly = 1 / 2 := by
  norm_num [selectionProbability, tokensOnly, p.round_one]
  rw [p.round_half]
  norm_num

theorem capacityAuditSlotSelected_everySlot (hrange : InRange slot) :
    capacityAuditSlotSelected p sha256 slot auditSeedHex everySlot = .ok true := by
  have hidentifier : slotId p sha256 slot = .ok (Hex.toText (sha256 (layout p slot)).bytes) :=
    slotId_eq_ok.mpr ⟨hrange, rfl⟩
  have hhit (identifier : String) :
      selectionHit p sha256 auditSeedHex "base" identifier 1 = true := by
    norm_num [selectionHit]
  unfold capacityAuditSlotSelected
  rw [selectionProbability_everySlot, hidentifier]
  dsimp only
  rw [if_neg (by norm_num)]
  change (if _ then _ else _) = _
  norm_num [everySlot, p.round_one, hhit]

theorem hits_tokensOnly (identifier : String) (keys : List String) :
    hits p sha256 auditSeedHex tokensOnly identifier keys =
      keys.any fun key => decide (selectionScore sha256 [auditSeedHex, "group", key] < 2 ^ 255) := by
  have hbase : selectionHit p sha256 auditSeedHex "base" identifier 0 = false := by
    norm_num [selectionHit]
  have hkey (key : String) : selectionHit p sha256 auditSeedHex "group" key (1 / 2) =
      decide (selectionScore sha256 [auditSeedHex, "group", key] < 2 ^ 255) := by
    have hchance : min 1 (max 0 (1 / 2 : ℚ)) = 1 / 2 := by norm_num
    have hthreshold : ⌊p.round (1 / 2 * 2 ^ 256)⌋ = 2 ^ 255 := by
      rw [show (1 / 2 * 2 ^ 256 : ℚ) = 2 ^ 255 by norm_num, p.round_two_pow_255]
      have hfloor := Int.floor_intCast (R := ℚ) (2 ^ 255)
      rwa [Int.cast_pow, Int.cast_ofNat] at hfloor
    rw [selectionHit, hchance, if_neg (by norm_num), if_neg (by norm_num), hthreshold]
    exact decide_eq_decide.mpr (by exact_mod_cast Iff.rfl)
  have hgroup : min 1 (max 0 tokensOnly.groupStressFraction) = 1 := by norm_num [tokensOnly]
  unfold hits
  rw [selectionProbability_tokensOnly, hgroup]
  dsimp only
  rw [sub_self, p.round_zero, mul_zero, p.round_zero, mul_one, p.round_half, hbase,
    Bool.false_or, show min 1 (1 / 2 : ℚ) = 1 / 2 by norm_num]
  simp only [hkey]
  norm_num

theorem hostname_of_accepts (hrange : InRange slot)
    (h : Accepts (capacityAuditSlotSelected p sha256 slot auditSeedHex tokensOnly)) :
    Accepts (p.hostname slot.endpoint) := by
  obtain ⟨selected, hselected⟩ := h
  have hbase (identifier : String) :
      selectionHit p sha256 auditSeedHex "base" identifier 0 = false := by
    norm_num [selectionHit]
  have hgroup : min 1 (max 0 tokensOnly.groupStressFraction) = 1 := by norm_num [tokensOnly]
  have hidentifier : slotId p sha256 slot = .ok (Hex.toText (sha256 (layout p slot)).bytes) :=
    slotId_eq_ok.mpr ⟨hrange, rfl⟩
  unfold capacityAuditSlotSelected at hselected
  rw [selectionProbability_tokensOnly, hgroup, hidentifier] at hselected
  dsimp only at hselected
  rw [if_neg (by norm_num)] at hselected
  change (if _ then _ else _) = _ at hselected
  rw [sub_self, p.round_zero, mul_zero, p.round_zero, hbase, if_neg (by simp)] at hselected
  obtain ⟨keys, hkeys, -⟩ := bind_eq_ok.mp hselected
  obtain ⟨tokens, htokens, -⟩ := capacitySlotGroupKeys_eq_ok.mp hkeys
  exact accepts_metadataTokens_iff.mp ⟨tokens, htokens⟩

/-! ## The list of selected slots -/

theorem forall_selectsExactly_iff (hdistinct : Distinct p slots)
    (hcollision : NoCollision p sha256 slots) :
    (∀ auditSeedHex cfg, SelectsExactly p sha256 slots auditSeedHex cfg) ↔
      (∀ slot ∈ slots, Readable p slot) ∧ NoTies p slots := by
  constructor
  · intro h
    obtain ⟨selected, hselected, -, hsame⟩ := h "" everySlot
    obtain ⟨hrange, -, rfl⟩ :=
      (selectCapacityAuditSlots_eq_ok hdistinct hcollision).mp hselected
    refine ⟨fun slot hslot => ⟨hrange slot hslot, ?_⟩, ?_⟩
    · -- without base selections the tokens of every slot are read
      obtain ⟨_, htokens, -⟩ := h "" tokensOnly
      have haccepts := ((selectCapacityAuditSlots_eq_ok hdistinct hcollision).mp htokens).2.1
      exact hostname_of_accepts (hrange slot hslot) (haccepts slot hslot)
    · -- every slot is selected, so the order of the whole list shows
      have hall (slots' : List CapacitySlot) (hperm : slots'.Perm slots) :
          slots'.filter (fun slot =>
            capacityAuditSlotSelected p sha256 slot "" everySlot = .ok true) = slots' := by
        apply List.filter_eq_self.mpr
        intro slot hslot
        exact decide_eq_true
          (capacityAuditSlotSelected_everySlot (hrange slot (hperm.mem_iff.mp hslot)))
      refine (StableSort.forall_perm_map_sortBy_iff (sortKey p) id slots).mp ?_
      intro slots' hperm
      have hsorted := ((selectCapacityAuditSlots_eq_ok (hdistinct.perm hperm)
        (hcollision.perm hperm)).mp (hsame slots' hperm)).2.2
      rw [hall slots' hperm, hall slots (.refl _)] at hsorted
      rw [List.map_id, List.map_id, hsorted]
  · rintro ⟨hreadable, hties⟩ auditSeedHex cfg
    have hrange : ∀ slot ∈ slots, InRange slot := fun slot hslot => (hreadable slot hslot).1
    refine ⟨_, (selectCapacityAuditSlots_eq_ok hdistinct hcollision).mpr
      ⟨hrange, fun slot hslot => (hreadable slot hslot).accepts, rfl⟩,
      StableSort.sortBy_perm _ _, ?_⟩
    intro slots' hperm
    refine (selectCapacityAuditSlots_eq_ok (hdistinct.perm hperm) (hcollision.perm hperm)).mpr
      ⟨fun slot hslot => hrange slot (hperm.mem_iff.mp hslot),
        fun slot hslot => (hreadable slot (hperm.mem_iff.mp hslot)).accepts, ?_⟩
    have hsorted := (StableSort.forall_perm_map_sortBy_iff (sortKey p) id
      (slots.filter fun slot =>
        capacityAuditSlotSelected p sha256 slot auditSeedHex cfg = .ok true)).mpr ?_ _
      (hperm.filter _)
    · rw [List.map_id, List.map_id] at hsorted
      exact hsorted.symm
    · intro a ha b hb hkey
      exact hties a (List.mem_of_mem_filter ha) b (List.mem_of_mem_filter hb) hkey

/-! ## Two records of a slot -/

variable {s s' : CapacitySlot}

theorem slotId_congr (h : publicFields s = publicFields s') :
    slotId p sha256 s = slotId p sha256 s' := by
  simp only [publicFields, Prod.mk.injEq] at h
  obtain ⟨hchain, hnet, haddress, hindex, -, -⟩ := h
  rw [slotId, slotId, slotPreimage, slotPreimage, CapacitySlot.addressLower,
    CapacitySlot.addressLower, hchain, hnet, haddress, hindex]

theorem metadataTokens_congr (h : publicFields s = publicFields s') :
    metadataTokens p s = metadataTokens p s' := by
  simp only [publicFields, Prod.mk.injEq] at h
  obtain ⟨-, -, haddress, -, hendpoint, hmodel⟩ := h
  rw [metadataTokens, metadataTokens, CapacitySlot.addressLower, CapacitySlot.addressLower,
    haddress, hendpoint, hmodel]

theorem inRange_congr (h : publicFields s = publicFields s') : InRange s ↔ InRange s' := by
  simp only [publicFields, Prod.mk.injEq] at h
  obtain ⟨hchain, hnet, -, hindex, -, -⟩ := h
  rw [InRange, InRange, hchain, hnet, hindex]

theorem capacitySlotGroupKeys_congr (h : publicFields s = publicFields s') (hrange : InRange s)
    (hextra : SameExtra p s s') : capacitySlotGroupKeys p s = capacitySlotGroupKeys p s' := by
  have htokens := metadataTokens_congr (p := p) h
  unfold capacitySlotGroupKeys
  rw [← htokens]
  cases hread : metadataTokens p s with
  | error error => rfl
  | ok tokens =>
    have hreadable : Readable p s := ⟨hrange, accepts_metadataTokens_iff.mp ⟨tokens, hread⟩⟩
    refine congrArg Except.ok (SortedSet.sortedSet_congr fun token => ?_)
    rw [List.mem_append, List.mem_append]
    by_cases htoken : token ∈ tokens
    · simp only [htoken, or_true]
    · rw [hextra hreadable tokens hread token htoken]

/-- A hash function that sends one byte string to the smallest digest and all others to the
largest. -/
def onlyHash (bytes bytes' : Bytes) : Digest :=
  if bytes' = bytes then Digest.fill 0 else Digest.fill 255

theorem scorePreimage_group_inj {key key' : String} :
    scorePreimage [auditSeedHex, "group", key] = scorePreimage [auditSeedHex, "group", key'] ↔
      key = key' := by
  constructor
  · intro h
    have hparts := List.append_cancel_left h
    simp only [List.flatMap_cons, List.flatMap_nil, List.append_nil] at hparts
    have hkey := List.append_cancel_left (List.append_cancel_left hparts)
    exact utf8_injective (List.append_cancel_right hkey)
  · rintro rfl
    rfl

theorem selectionScore_onlyHash (token key : String) :
    selectionScore (onlyHash (scorePreimage [auditSeedHex, "group", token]))
        [auditSeedHex, "group", key] < 2 ^ 255 ↔ key = token := by
  by_cases heq : key = token
  · rw [selectionScore, onlyHash, if_pos (scorePreimage_group_inj.mpr heq)]
    simp only [heq, iff_true]
    decide
  · rw [selectionScore, onlyHash, if_neg (mt scorePreimage_group_inj.mp heq)]
    simp only [heq, iff_false]
    decide

theorem capacityAuditSlotSelected_onlyHash (token : String) (hrange : InRange slot)
    {tokens : List String} (htokens : metadataTokens p slot = .ok tokens) :
    capacityAuditSlotSelected p (onlyHash (scorePreimage [auditSeedHex, "group", token])) slot
        auditSeedHex tokensOnly =
      .ok (decide (token ∈ stringTokens p slot ++ tokens)) := by
  rw [capacityAuditSlotSelected_eq hrange htokens, hits_tokensOnly]
  simp only [selectionScore_onlyHash]
  congr 1
  rw [Bool.eq_iff_iff, List.any_eq_true, decide_eq_true_iff]
  constructor
  · rintro ⟨key, hkey, heq⟩
    rw [decide_eq_true_iff] at heq
    rw [← heq]
    exact SortedSet.mem_sortedSet.mp hkey
  · intro hmem
    exact ⟨token, SortedSet.mem_sortedSet.mpr hmem, decide_eq_true rfl⟩

theorem forall_selected_eq_iff (h : publicFields s = publicFields s') :
    (∀ sha256 auditSeedHex cfg, capacityAuditSlotSelected p sha256 s auditSeedHex cfg =
        capacityAuditSlotSelected p sha256 s' auditSeedHex cfg) ↔
      SameExtra p s s' := by
  constructor
  · intro heq hreadable tokens htokens token htoken
    have hselected := heq (onlyHash (scorePreimage ["", "group", token])) "" tokensOnly
    rw [capacityAuditSlotSelected_onlyHash token hreadable.1 htokens,
      capacityAuditSlotSelected_onlyHash token ((inRange_congr h).mp hreadable.1)
        ((metadataTokens_congr h).symm.trans htokens), Except.ok.injEq, decide_eq_decide,
      List.mem_append, List.mem_append, or_iff_left htoken, or_iff_left htoken] at hselected
    exact hselected
  · intro hextra sha256 auditSeedHex cfg
    unfold capacityAuditSlotSelected
    rw [← slotId_congr h]
    cases hidentifier : slotId p sha256 s with
    | error error => rfl
    | ok identifier =>
      rw [capacitySlotGroupKeys_congr h (slotId_eq_ok.mp hidentifier).1 hextra]

/-- A standard library that knows one endpoint. -/
def onePlatform : Platform where
  lc := .ascii
  strip text := text
  hostname endpoint := .ok (if endpoint = "http://10.0.0.7:8000" then some "10.0.0.7" else none)
  ipAddress host := if host = "10.0.0.7" then some (some host) else none
  idna := some
  round value := value
  round_zero := rfl
  round_two_zpow _ _ _ := rfl

/-- SHA-256. -/
def standardHash (bytes : Bytes) : Digest := ⟨Sha256.hash bytes, Sha256.length_hash bytes⟩

/-- A slot as the chain advertises it. -/
def advertised : CapacitySlot where
  chainId := 964
  netuid := 96
  address := "0x00000000000000000000000000000000000000A1"
  modelIndex := 0
  endpoint := "http://10.0.0.7:8000"
  modelId := "qwen3-8b"

end Verathos.CapacityAudit
