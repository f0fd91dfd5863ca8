import Verathos.PrefixCache.Material

/-!
# The challenge

What the nonce selects: blocks, signed stages, and lanes of the stages of the selected blocks.

The draws hash a counter. `SpreadHash` says that the hash stream has enough distinct residues before
the counter overflows, so that the draws end. Nothing else is assumed of the hash.
-/

namespace Verathos.PrefixCache

open Anchor SortedSet

/-! ## Lists and dictionaries -/

theorem flatMap_ite_nil {α β : Type} (p : α → Prop) [DecidablePred p] (f : α → List β)
    (items : List α) :
    (items.flatMap fun a => if p a then f a else []) = (items.filter fun a => p a).flatMap f := by
  induction items with
  | nil => rfl
  | cons a items ih =>
    by_cases h : p a
    · rw [List.flatMap_cons, List.filter_cons_of_pos (by simpa using h), List.flatMap_cons, if_pos h,
        ih]
    · rw [List.flatMap_cons, List.filter_cons_of_neg (by simpa using h), if_neg h, ih,
        List.nil_append]

section Dictionary

variable {κ β : Type} [DecidableEq κ] {entries : List (κ × β)} {key : κ} {value : β}

theorem dictGet_of_mem (hmem : (key, value) ∈ entries)
    (hunique : ∀ value', (key, value') ∈ entries → value' = value) :
    dictGet entries key = some value := by
  have hsome : (entries.reverse.find? fun entry => entry.1 = key).isSome := by
    rw [List.find?_isSome]
    exact ⟨(key, value), List.mem_reverse.mpr hmem, by simp⟩
  obtain ⟨⟨key', value'⟩, hfind⟩ := Option.isSome_iff_exists.mp hsome
  have hkey : key' = key := by simpa using List.find?_some hfind
  subst hkey
  have hvalue := hunique value' (List.mem_reverse.mp (List.mem_of_find?_eq_some hfind))
  rw [dictGet, hfind, Option.map_some, hvalue]

theorem dictGet_eq_some (hnodup : (entries.map Prod.fst).Nodup) :
    dictGet entries key = some value ↔ (key, value) ∈ entries := by
  constructor
  · intro hget
    obtain ⟨⟨key', value'⟩, hfind, rfl⟩ := Option.map_eq_some_iff.mp hget
    have hkey : key' = key := by simpa using List.find?_some hfind
    rw [← hkey]
    exact List.mem_reverse.mp (List.mem_of_find?_eq_some hfind)
  · intro hmem
    refine dictGet_of_mem hmem fun value' hmem' => ?_
    exact congrArg Prod.snd (List.inj_on_of_nodup_map hnodup hmem' hmem rfl)

theorem dictGet_eq_none : dictGet entries key = none ↔ key ∉ entries.map Prod.fst := by
  rw [dictGet, Option.map_eq_none_iff, List.find?_eq_none]
  simp only [List.mem_reverse, decide_eq_true_eq, List.mem_map, not_exists, not_and]

theorem dictItem_of_mem (hmem : (key, value) ∈ entries)
    (hunique : ∀ value', (key, value') ∈ entries → value' = value) :
    dictItem entries key = .ok value := by
  rw [dictItem, dictGet_of_mem hmem hunique]

end Dictionary

/-! ## Draws -/

/-- The hash stream of every seed has enough distinct residues before the counter overflows. -/
def SpreadHash (sha256 : Bytes → Digest) : Prop :=
  ∀ (seed : Bytes) (modulus : ℕ), 0 < modulus → modulus < 2 ^ 32 →
    min blockSampleCount modulus ≤
      (DistinctDraw.residues (wordStream sha256 seed) modulus (2 ^ 32)).card

/-- A hash that repeats the last four bytes of its message: the counter of a draw. -/
def counterHash (message : Bytes) : Digest :=
  ⟨(List.replicate 4 0 ++ message).drop message.length ++ List.replicate 4 0 ++ List.replicate 24 1,
    by
      rw [List.length_append, List.length_append, List.length_drop, List.length_append,
        Nat.add_sub_cancel]
      rfl⟩

theorem counterHash_ne_zero (message : Bytes) : counterHash message ≠ Digest.zero := by
  intro h
  have hlast := congrArg (fun digest => digest.bytes.getLast?) h
  simp only [counterHash, List.getLast?_append] at hlast
  cases hlast

theorem spreadHash_counterHash : SpreadHash counterHash := by
  intro seed modulus _ hlt
  refine (min_le_right _ _).trans (DistinctDraw.le_card_residues (fun c hc => ?_) hlt.le)
  have hdrop : (List.replicate 4 0 ++ (seed ++ packI c)).drop (seed ++ packI c).length =
      packI c := by
    have hlength : (seed ++ packI c).length = (List.replicate 4 (0 : UInt8) ++ seed).length := by
      rw [List.length_append, List.length_append, List.length_replicate, packI,
        LittleEndian.length_toBytes, Nat.add_comm]
    rw [← List.append_assoc, hlength, List.drop_left]
  have hbytes : (((counterHash (seed ++ packI c)).bytes.drop 0).take 8) =
      packI c ++ List.replicate 4 0 := by
    rw [counterHash, List.drop_zero]
    dsimp only
    rw [hdrop, List.take_left']
    rw [List.length_append, List.length_replicate, packI, LittleEndian.length_toBytes]
  refine List.mem_cons.mpr (.inl ?_)
  dsimp only
  rw [hbytes, LittleEndian.toNat_append, packI, LittleEndian.toNat_toBytes hc]
  rfl

section Draw

variable {lib : CacheMerkleLibrary} {sha256 : Bytes → Digest}

theorem drawDistinct_spec (hspread : SpreadHash sha256) (seed : Bytes) {count modulus : ℕ}
    (hcount : 0 < count) (hle : count ≤ blockSampleCount) (hpos : 0 < modulus)
    (hlt : modulus < 2 ^ 32) :
    ∃ drawn, drawDistinct sha256 seed count modulus = .ok drawn ∧ drawn.Pairwise (· < ·) ∧
      drawn.length = min count modulus ∧ ∀ value ∈ drawn, value < modulus := by
  have htarget : 0 < min count modulus := lt_min hcount hpos
  have henough : min count modulus ≤
      (DistinctDraw.residues (wordStream sha256 seed) modulus (2 ^ 32)).card :=
    (min_le_min_right modulus hle).trans (hspread seed modulus hpos hlt)
  obtain ⟨chosen, hchosen⟩ :=
    Option.isSome_iff_exists.mp ((DistinctDraw.draw_isSome_iff htarget).mpr henough)
  have hcard := (DistinctDraw.draw_spec htarget hchosen).1
  refine ⟨chosen.sort (· ≤ ·), ?_, chosen.sortedLT_sort.pairwise, ?_, fun value hvalue => ?_⟩
  · rw [drawDistinct, hchosen]
  · rw [Finset.length_sort, hcard]
  · rw [Finset.mem_sort] at hvalue
    exact DistinctDraw.lt_of_mem_draw htarget hpos hchosen hvalue

theorem deriveBlockIndices_spec (hspread : SpreadHash sha256) {nonce : Digest}
    (hnonce : nonce ≠ Digest.zero) (commitment : PrefixCacheCommitment)
    (hpos : 0 < commitment.val.blockCount) (hlt : commitment.val.blockCount < 2 ^ 32) :
    ∃ base, deriveBlockIndices sha256 nonce commitment blockSampleCount = .ok base ∧
      base.Pairwise (· < ·) ∧ base.length = min blockSampleCount commitment.val.blockCount ∧
      ∀ index ∈ base, index < commitment.val.blockCount := by
  obtain ⟨base, hdraw, hbase⟩ := drawDistinct_spec hspread
    (sha256 (challengeDomain ++ nonce.bytes ++ (commitment.val.digest sha256).bytes)).bytes
    (show 0 < blockSampleCount by decide) le_rfl hpos hlt
  refine ⟨base, ?_, hbase⟩
  simp only [deriveBlockIndices, bind_eq_ok, raiseIf_eq_ok, nonzero32_eq_ok, positiveU32_eq_ok,
    exists_const]
  exact ⟨hnonce, by decide, by decide, hdraw⟩

theorem stateRecord_bounds (record : PrefixCacheStateRecord) :
    (0 < record.val.rowCount ∧ record.val.rowCount < 2 ^ 32) ∧
      (0 < record.val.laneCount ∧ record.val.laneCount < 2 ^ 32) ∧
      record.val.blockIndex < 2 ^ 32 := by
  have hpost := record.property
  simp only [StateRecordFields.postInit, bind_eq_ok, u32_eq_ok, positiveU32_eq_ok, exists_const]
    at hpost
  obtain ⟨hblock, hcount, hwidth, -⟩ := hpost
  refine ⟨hcount, ?_, hblock⟩
  rw [StateRecordFields.laneCount]
  rcases laneBytes_cases record.val.stageId with h | h
  · rw [h, compactGdnLaneBytes]
    omega
  · rw [h, defaultLaneBytes]
    omega

/-- A lane within the geometry of a record. -/
structure LaneOf (record : PrefixCacheStateRecord) (key : LaneKey) : Prop where
  stageKey_eq : key.stageKey = record.val.key
  rowIndex_lt : key.rowIndex < record.val.rowCount
  laneIndex_lt : key.laneIndex < record.val.laneCount

theorem LaneOf.blockIndex_eq {record : PrefixCacheStateRecord} {key : LaneKey} (h : LaneOf record key) :
    key.blockIndex = record.val.blockIndex :=
  congrArg (fun stageKey => (ofLex stageKey).1) h.stageKey_eq

theorem LaneOf.stageId_eq {record : PrefixCacheStateRecord} {key : LaneKey} (h : LaneOf record key) :
    key.stageId = record.val.stageId.text :=
  congrArg (fun stageKey => (ofLex stageKey).2) h.stageKey_eq

theorem recordLaneKeys_spec (hspread : SpreadHash sha256) (nonce : Digest)
    (commitment : PrefixCacheCommitment) (record : PrefixCacheStateRecord) :
    ∃ keys, recordLaneKeys sha256 nonce commitment rowsPerStage lanesPerRow record = .ok keys ∧
      keys ≠ [] ∧ ∀ key ∈ keys, LaneOf record key := by
  obtain ⟨hrowCount, hlaneCount, -⟩ := stateRecord_bounds record
  set seed := (sha256 (laneChallengeDomain ++ nonce.bytes ++ (commitment.val.digest sha256).bytes ++
    record.val.canonicalBytes)).bytes with hseed
  obtain ⟨rows, hrows, -, hlength, hrowLt⟩ := drawDistinct_spec hspread (seed ++ asciiBytes "/ROW")
    (show 0 < rowsPerStage by decide) (show rowsPerStage ≤ blockSampleCount by decide)
    hrowCount.1 hrowCount.2
  have hlanes : ∀ rowIndex, ∃ lanes,
      drawDistinct sha256 (seed ++ asciiBytes "/LANE" ++ packI rowIndex) lanesPerRow
        record.val.laneCount = .ok lanes ∧ lanes.Pairwise (· < ·) ∧
      lanes.length = min lanesPerRow record.val.laneCount ∧
      ∀ lane ∈ lanes, lane < record.val.laneCount := fun rowIndex =>
    drawDistinct_spec hspread _ (show 0 < lanesPerRow by decide)
      (show lanesPerRow ≤ blockSampleCount by decide) hlaneCount.1 hlaneCount.2
  choose lanes hlanesDraw _ hlanesLength hlanesLt using hlanes
  refine ⟨rows.flatMap fun rowIndex => (lanes rowIndex).map fun laneIndex =>
    LaneKey.of record.val.blockIndex record.val.stageId.text rowIndex laneIndex, ?_, ?_, ?_⟩
  · simp only [recordLaneKeys, bind_eq_ok, pure_eq_ok]
    refine ⟨rows, hrows, rows.map fun rowIndex => (lanes rowIndex).map fun laneIndex =>
      LaneKey.of record.val.blockIndex record.val.stageId.text rowIndex laneIndex, ?_, rfl⟩
    refine mapM_eq_ok_map fun rowIndex _ => ?_
    exact bind_eq_ok.mpr ⟨lanes rowIndex, hlanesDraw rowIndex, rfl⟩
  · obtain ⟨rowIndex, hrowIndex⟩ := List.exists_mem_of_length_pos
      (show 0 < rows.length by rw [hlength]; exact lt_min (by decide) hrowCount.1)
    obtain ⟨laneIndex, hlaneIndex⟩ := List.exists_mem_of_length_pos
      (show 0 < (lanes rowIndex).length by
        rw [hlanesLength]
        exact lt_min (by decide) hlaneCount.1)
    exact List.ne_nil_of_mem (List.mem_flatMap.mpr
      ⟨rowIndex, hrowIndex, List.mem_map_of_mem hlaneIndex⟩)
  · intro key hkey
    obtain ⟨rowIndex, hrowIndex, hkey⟩ := List.mem_flatMap.mp hkey
    obtain ⟨laneIndex, hlaneIndex, rfl⟩ := List.mem_map.mp hkey
    exact ⟨rfl, hrowLt rowIndex hrowIndex, hlanesLt rowIndex laneIndex hlaneIndex⟩

/-- The lanes of all challenged records are derived exactly when there are some records, and not too
many. -/
theorem deriveLaneKeys_eq_ok (hspread : SpreadHash sha256) {nonce : Digest}
    (hnonce : nonce ≠ Digest.zero) (commitment : PrefixCacheCommitment)
    {records : List PrefixCacheStateRecord}
    (hsorted : (records.map fun record => record.val.key).Pairwise (· < ·)) :
    ∃ keys, records.mapM (recordLaneKeys sha256 nonce commitment rowsPerStage lanesPerRow) =
        .ok keys ∧
      List.Forall₂ (fun record laneKeys => laneKeys ≠ [] ∧ ∀ key ∈ laneKeys, LaneOf record key)
        records keys ∧
      ∀ result, deriveLaneKeys sha256 nonce commitment records rowsPerStage lanesPerRow =
          .ok result ↔
        records ≠ [] ∧ records.length ≤ maxStateStages ∧ sorted keys.flatten = result := by
  choose laneKeys hlaneKeys hspec using recordLaneKeys_spec hspread nonce commitment
  have hkeys : records.mapM (recordLaneKeys sha256 nonce commitment rowsPerStage lanesPerRow) =
      .ok (records.map laneKeys) := mapM_eq_ok_map fun record _ => hlaneKeys record
  refine ⟨_, hkeys, ?_, fun result => ?_⟩
  · rw [List.forall₂_map_right_iff, List.forall₂_same]
    exact fun record _ => hspec record
  · simp only [deriveLaneKeys, bind_eq_ok, raiseIf_eq_ok, nonzero32_eq_ok, positiveU32_eq_ok,
      pure_eq_ok, exists_const, isCanonical_iff, not_or, not_not, hkeys, Except.ok.injEq,
      exists_eq_left', gt_iff_lt, not_lt]
    constructor
    · rintro ⟨-, -, -, -, ⟨hne, hle, -⟩, hresult⟩
      exact ⟨hne, hle, hresult⟩
    · rintro ⟨hne, hle, hresult⟩
      exact ⟨hnonce, by decide, by decide, by decide, ⟨hne, hle, hsorted⟩, hresult⟩

end Draw

/-! ## Stages -/

section StageIds

/-- The number that decimal digits write. -/
def ofDecimal (text : Bytes) : ℕ := Nat.ofDigits 10 (text.reverse.map fun digit => digit.toNat - 0x30)

theorem ofDecimal_decimal (n : ℕ) : ofDecimal (decimal n) = n := by
  unfold ofDecimal decimal
  split_ifs with h
  · rw [h]
    rfl
  · rw [List.reverse_reverse, List.map_map]
    have hdigits : ((Nat.digits 10 n).map
        ((fun digit => digit.toNat - 0x30) ∘ fun digit => UInt8.ofNat (0x30 + digit))) =
        Nat.digits 10 n := by
      refine (List.map_congr_left fun digit hdigit => ?_).trans (List.map_id _)
      have hlt : digit < 10 := Nat.digits_lt_base (by norm_num) hdigit
      simp only [Function.comp_apply, UInt8.toNat_ofNat', id]
      omega
    rw [hdigits, Nat.ofDigits_digits]

theorem decimal_injective : Function.Injective decimal := fun a b h => by
  rw [← ofDecimal_decimal a, h, ofDecimal_decimal]

theorem layer_eq_of_mem_attentionStageIds {layer layer' : ℕ} {stageId : Bytes}
    (h : stageId ∈ attentionStageIds layer) (h' : stageId ∈ attentionStageIds layer') :
    layer = layer' := by
  have hlength : (asciiBytes ".attention_k_cache").length = (asciiBytes ".attention_v_cache").length :=
    by decide
  -- both end with a text of the same length
  have key : ∀ tail tail' : Bytes, tail.length = tail'.length →
      asciiBytes "l" ++ decimal layer ++ tail = asciiBytes "l" ++ decimal layer' ++ tail' →
      layer = layer' := by
    intro tail tail' htail heq
    have hfront := (List.append_inj' heq htail).1
    exact decimal_injective (List.append_cancel_left hfront)
  simp only [attentionStageIds, List.mem_cons, List.not_mem_nil, or_false] at h h'
  rcases h with rfl | rfl
  · rcases h' with h' | h'
    · exact key _ _ rfl h'
    · exact key _ _ hlength h'
  · rcases h' with h' | h'
    · exact key _ _ hlength.symm h'
    · exact key _ _ rfl h'

theorem nodup_attentionStageIds (layer : ℕ) : (attentionStageIds layer).Nodup := by
  have hne : asciiBytes ".attention_k_cache" ≠ asciiBytes ".attention_v_cache" := by decide
  rw [attentionStageIds, List.nodup_cons, List.mem_singleton]
  exact ⟨fun heq => hne (List.append_cancel_left heq), List.nodup_singleton _⟩

/-- The selected layers with an attention cache. -/
def attentionLayers (layerCaches : List (ℕ × CacheKind)) (selected : List ℕ) : List ℕ :=
  selected.filter fun layer => (layer, CacheKind.attentionKv) ∈ layerCaches

variable {layerCaches : List (ℕ × CacheKind)} {selected : List ℕ}

theorem prefixCacheStageIdsForLayers_spec (hne : selected ≠ []) (hnodup : selected.Nodup)
    (hfamilies : (layerCaches.map Prod.fst).Nodup)
    (hsigned : ∀ layer ∈ selected, ∃ kind, (layer, kind) ∈ layerCaches) :
    ∃ stageIds, prefixCacheStageIdsForLayers layerCaches selected = .ok stageIds ∧
      stageIds.Pairwise (· < ·) ∧
      stageIds.length = 2 * (attentionLayers layerCaches selected).length ∧
      ∀ stageId, stageId ∈ stageIds ↔
        ∃ layer ∈ attentionLayers layerCaches selected, stageId ∈ attentionStageIds layer := by
  have hperm : (sorted selected).Perm selected := List.perm_insertionSort _ _
  have hsorted : (sorted selected).Nodup := hperm.nodup_iff.mpr hnodup
  have hfilter : ((sorted selected).filter fun layer =>
      (layer, CacheKind.attentionKv) ∈ layerCaches).Perm (attentionLayers layerCaches selected) :=
    hperm.filter _
  have hflatten : ((sorted selected).map fun layer =>
      if (layer, CacheKind.attentionKv) ∈ layerCaches then attentionStageIds layer else []).flatten =
      ((sorted selected).filter fun layer =>
        (layer, CacheKind.attentionKv) ∈ layerCaches).flatMap attentionStageIds :=
    flatMap_ite_nil _ _ _
  have hstagesNodup : (((sorted selected).filter fun layer =>
      (layer, CacheKind.attentionKv) ∈ layerCaches).flatMap attentionStageIds).Nodup := by
    rw [List.nodup_flatMap]
    refine ⟨fun layer _ => nodup_attentionStageIds layer, ?_⟩
    refine List.Pairwise.imp ?_ (hsorted.filter _)
    intro layer layer' hlayer stageId hstage hstage'
    exact hlayer (layer_eq_of_mem_attentionStageIds hstage hstage')
  refine ⟨_, ?_, pairwise_lt_of_nodup (List.pairwise_insertionSort _ _)
    ((List.perm_insertionSort _ _).nodup_iff.mpr hstagesNodup), ?_, fun stageId => ?_⟩
  · simp only [prefixCacheStageIdsForLayers, bind_eq_ok, raiseIf_eq_ok, pure_eq_ok, exists_const]
    refine ⟨?_, not_not.mpr hfamilies, _, mapM_eq_ok_map (g := fun layer =>
      if (layer, CacheKind.attentionKv) ∈ layerCaches then attentionStageIds layer else [])
      fun layer hlayer => ?_, by rw [hflatten]; rfl⟩
    · rw [not_or, hsorted.dedup]
      refine ⟨fun hnil => hne ?_, by simp⟩
      rw [hnil] at hperm
      exact hperm.nil_eq.symm
    · obtain ⟨kind, hkind⟩ := hsigned layer (mem_sorted.mp hlayer)
      have hget := (dictGet_eq_some hfamilies).mpr hkind
      cases kind with
      | attentionKv => rw [hget, if_pos hkind]
      | gdnState =>
        have hnot : (layer, CacheKind.attentionKv) ∉ layerCaches := fun hmem => by
          rw [(dictGet_eq_some hfamilies).mpr hmem] at hget
          cases hget
        rw [hget, if_neg hnot]
  · have htwo : ∀ layer, (attentionStageIds layer).length = 2 := fun _ => rfl
    simp only [(List.perm_insertionSort _ _).length_eq, List.length_flatMap, htwo, List.map_const',
      List.sum_replicate, hfilter.length_eq, smul_eq_mul]
    rw [mul_comm]
  · rw [(List.perm_insertionSort _ _).mem_iff, List.mem_flatMap]
    simp only [hfilter.mem_iff]

end StageIds

end Verathos.PrefixCache
