import Mathlib.Data.List.GetD
import Verathos.Sampling.Defs

/-!
# Leaves and the argmax of a row

A leaf holds the largest logits of a row in the order of their ranking. `np.argpartition` is free among
equal values at the cut, and the format of a leaf is read off its length alone.

* `extractTopKSorted_iff`: the leaf holds the first indices of the ranking exactly when there is no tie
  at the cut;
* `parse_serialize`: a leaf is parsed to what was written;
* `argmaxLeaves_agree_iff`: both leaves of a row show its lowest argmax exactly when no value stands on
  both sides of the cut, and the number of all logits is no multiple of three or the misread leaf
  happens to name the argmax.
-/

namespace Verathos.Sampling

open LittleEndian (length_flatMap_of_length)
open StableSort (sortBy sortBy_perm mem_sortBy pairwise_sortBy)
open TopSelection (rank ranking ascending Selection NoTieAtCut IsFirst rank_le_iff)

/-- A row of logits without NaN. An array of NumPy has fewer than `2 ^ 63` elements. -/
structure LogitsRow where
  bits : List UInt32
  ne_nil : bits ≠ []
  length_lt : bits.length < 2 ^ 63
  not_nan : ∀ value ∈ bits, ¬ IsNan value

/-- What NumPy documents of `np.argpartition(logits, kth)`: the element at `kth` is in its final sorted
position, all smaller elements stand before it and all larger ones behind it. -/
structure Partitions (logits : List UInt32) (kth : ℕ) (order : List ℕ) : Prop where
  perm : order.Perm (List.range logits.length)
  before : ∀ place index pivot, order[place]? = some index → order[kth]? = some pivot →
    valueKey logits index < valueKey logits pivot → place < kth
  behind : ∀ place index pivot, order[place]? = some index → order[kth]? = some pivot →
    valueKey logits pivot < valueKey logits index → kth < place

/-- The documented contract of `np.argpartition`. -/
def Lawful (argpartition : List UInt32 → ℕ → List ℕ) : Prop :=
  ∀ logits kth, kth < logits.length → Partitions logits kth (argpartition logits kth)

/-- The indices of a row by value descending, then by index. -/
def ranked (logits : List UInt32) : List ℕ := ranking (valueKey logits) (List.range logits.length)

/-- The lowest index of a largest value. -/
def IsLowestArgmax (logits : List UInt32) (token : ℤ) : Prop :=
  ∃ index : ℕ, token = index ∧ index < logits.length ∧
    (∀ other < logits.length, valueKey logits other ≤ valueKey logits index) ∧
    ∀ other < index, valueKey logits other < valueKey logits index

variable {logits : List UInt32} {k n : ℕ} {argpartition : List UInt32 → ℕ → List ℕ}

/-! ## Negation -/

theorem fp32Key_negate {value : UInt32} (h : ¬ IsNan value) :
    fp32Key (negate value) = -fp32Key value := by
  have hlt : value.toNat < 2 ^ 32 := value.toNat_lt
  have hneg : (negate value).toNat = (value.toNat + 2147483648) % 2 ^ 32 := by
    rw [negate, UInt32.toNat_add]
    rfl
  have hmagnitude : (negate value).toNat % 2 ^ 31 = value.toNat % 2 ^ 31 := by omega
  have hsign : ∀ bits : ℕ, ¬ (2 ^ 8 - 1) * 2 ^ 23 < bits % 2 ^ 31 →
      floatKey 23 8 bits = if bits < 2 ^ 31 then ((bits % 2 ^ 31 : ℕ) : ℤ)
        else -((bits % 2 ^ 31 : ℕ) : ℤ) := by
    intro bits hbits
    rw [floatKey]
    exact if_neg hbits
  rw [IsNan] at h
  have hnegated : ¬ (2 ^ 8 - 1) * 2 ^ 23 < (negate value).toNat % 2 ^ 31 := by
    rwa [hmagnitude]
  rw [fp32Key, fp32Key, hsign _ h, hsign _ hnegated, hmagnitude]
  rcases lt_or_ge value.toNat (2 ^ 31) with hpos | hnegative
  · -- the sign bit is set by the negation
    rw [if_pos hpos, if_neg (by omega)]
  · rw [if_neg (not_lt.mpr hnegative), if_pos (by omega), neg_neg]

/-! ## Selections of `np.argpartition` -/

theorem selection_of_partitions {order : List ℕ} (hk : 0 < k) (hlt : k ≤ logits.length)
    (h : Partitions logits (logits.length - k) order) :
    Selection (valueKey logits) (List.range logits.length) k (order.drop (order.length - k)) := by
  have hlength : order.length = logits.length := by
    rw [h.perm.length_eq, List.length_range]
  rw [hlength]
  have hpivot : logits.length - k < order.length := by omega
  have hget := List.getElem?_eq_getElem hpivot
  constructor
  · exact (h.perm.nodup_iff.mpr List.nodup_range).sublist (List.drop_sublist _ _)
  · exact fun a ha => h.perm.subset (List.drop_subset _ _ ha)
  · rw [List.length_drop]
    omega
  · intro a ha b hb hout
    have hb' := h.perm.mem_iff.mpr hb
    rw [← List.take_append_drop (logits.length - k) order, List.mem_append] at hb'
    obtain ⟨place, hplace⟩ := List.mem_iff_getElem?.mp (hb'.resolve_right hout)
    obtain ⟨later, hlater⟩ := List.mem_iff_getElem?.mp ha
    rw [List.getElem?_drop] at hlater
    have hplace' : place < logits.length - k := by
      by_contra hge
      rw [List.getElem?_take_eq_none (not_lt.mp hge)] at hplace
      exact nomatch hplace
    rw [List.getElem?_take_of_lt hplace'] at hplace
    -- the pivot stands between both
    calc valueKey logits b ≤ valueKey logits order[logits.length - k] := by
          by_contra hgt
          exact absurd (h.behind _ _ _ hplace hget (not_le.mp hgt)) (by omega)
      _ ≤ valueKey logits a := by
          by_contra hgt
          exact absurd (h.before _ _ _ hlater hget (not_le.mp hgt)) (by omega)

theorem lawful_ascending : Lawful fun logits _ =>
    ascending (valueKey logits) (List.range logits.length) := by
  intro logits kth hkth
  have hsorted := pairwise_sortBy (fun index => (toLex (valueKey logits index, index) : ℤ ×ₗ ℕ))
    (List.range logits.length)
  have hle : ∀ place place' index index' : ℕ, place ≤ place' →
      (ascending (valueKey logits) (List.range logits.length))[place]? = some index →
      (ascending (valueKey logits) (List.range logits.length))[place']? = some index' →
      valueKey logits index ≤ valueKey logits index' := by
    intro place place' index index' hplaces hindex hindex'
    obtain ⟨hlt, rfl⟩ := List.getElem?_eq_some_iff.mp hindex
    obtain ⟨hlt', rfl⟩ := List.getElem?_eq_some_iff.mp hindex'
    rcases hplaces.eq_or_lt with rfl | hless
    · exact le_rfl
    · rcases Prod.Lex.toLex_le_toLex.mp (List.pairwise_iff_getElem.mp hsorted _ _ hlt hlt' hless)
        with hkey | ⟨hkey, -⟩
      · exact hkey.le
      · exact hkey.le
  constructor
  · exact sortBy_perm _ _
  · intro place index pivot hindex hpivot hless
    by_contra hge
    exact absurd (hle _ _ _ _ (not_lt.mp hge) hpivot hindex) (not_le.mpr hless)
  · intro place index pivot hindex hpivot hless
    by_contra hge
    exact absurd (hle _ _ _ _ (not_lt.mp hge) hindex hpivot) (not_le.mpr hless)

/-! ## The extraction -/

theorem lexsorted_eq {idx : List ℕ} (hnan : ∀ value ∈ logits, ¬ IsNan value)
    (hidx : ∀ index ∈ idx, index < logits.length) :
    lexsorted (idx.map fun index => logits.getD index 0) idx =
      ((sortBy (rank (valueKey logits)) idx).map fun index => logits.getD index 0,
        sortBy (rank (valueKey logits)) idx) := by
  have hzip : (idx.map fun index => logits.getD index 0).zip idx =
      idx.map fun index => (logits.getD index 0, index) := by
    exact List.map_prod_right_eq_zip.symm
  have hsorted : sortBy (fun entry => (toLex (fp32Key (negate entry.1), entry.2) : ℤ ×ₗ ℕ))
      (idx.map fun index => (logits.getD index 0, index)) =
      (sortBy (rank (valueKey logits)) idx).map fun index => (logits.getD index 0, index) := by
    refine (List.map_mergeSort fun a ha b hb => ?_).symm
    have hkey : ∀ index ∈ idx, fp32Key (negate (logits.getD index 0)) = -valueKey logits index := by
      intro index hindex
      refine fp32Key_negate (hnan _ ?_)
      rw [List.getD_eq_getElem _ _ (hidx index hindex)]
      exact List.getElem_mem _
    rw [decide_eq_decide, rank_le_iff, Prod.Lex.toLex_le_toLex, hkey a ha, hkey b hb]
    simp only [neg_lt_neg_iff, neg_inj]
  rw [lexsorted, hzip]
  refine (congrArg (fun sorted => (sorted.map Prod.fst, sorted.map Prod.snd)) hsorted).trans ?_
  rw [List.map_map, List.map_map]
  refine Prod.ext rfl ?_
  exact List.map_id _

/-- The first `min(k, n)` indices of the ranking. -/
def firstIndices (logits : List UInt32) (k : ℕ) : List ℕ := (ranked logits).take (min k logits.length)

/-- The arrays of some indices. -/
def arraysOf (logits : List UInt32) (idx : List ℕ) : List UInt32 × List ℕ :=
  (idx.map fun index => logits.getD index 0, idx)

variable {index : ℕ}

theorem lt_of_mem_ranked (h : index ∈ ranked logits) : index < logits.length :=
  List.mem_range.mp (TopSelection.mem_ranking.mp h)

theorem exists_selection_of_extract (hnan : ∀ value ∈ logits, ¬ IsNan value) (hk : 0 < k)
    (h : Lawful argpartition) :
    ∃ chosen, Selection (valueKey logits) (List.range logits.length) (min k logits.length) chosen ∧
      extractTopKSorted argpartition logits k =
        arraysOf logits (sortBy (rank (valueKey logits)) chosen) := by
  rw [extractTopKSorted]
  dsimp only
  split_ifs with hall
  · -- the whole row
    refine ⟨List.range logits.length, ⟨List.nodup_range, List.Subset.refl _, ?_, ?_⟩, ?_⟩
    · rw [List.length_range]
      omega
    · exact fun _ _ b hb hout => absurd hb hout
    · exact lexsorted_eq hnan fun index hindex => List.mem_range.mp hindex
  · have hmin : min k logits.length = k := by omega
    rw [hmin]
    have hselection := selection_of_partitions hk (by omega)
      (h logits (logits.length - k) (by omega))
    refine ⟨_, hselection, lexsorted_eq hnan fun index hindex => ?_⟩
    exact List.mem_range.mp (hselection.subset hindex)

theorem extract_ascending (hnan : ∀ value ∈ logits, ¬ IsNan value) (hlt : k < logits.length) :
    extractTopKSorted
        (fun logits _ => ascending (valueKey logits) (List.range logits.length)) logits k =
      arraysOf logits (sortBy (rank (valueKey logits))
        ((ascending (valueKey logits) (List.range logits.length)).drop (logits.length - k))) := by
  have hmin : min k logits.length = k := min_eq_left hlt.le
  have hlength : (ascending (valueKey logits) (List.range logits.length)).length =
      logits.length := by
    rw [ascending, (sortBy_perm _ _).length_eq, List.length_range]
  rw [extractTopKSorted]
  dsimp only
  rw [if_neg (by omega), hlength, hmin]
  refine lexsorted_eq hnan fun index hindex => ?_
  exact List.mem_range.mp ((mem_sortBy _).mp (List.drop_subset _ _ hindex))

theorem extractTopKSorted_iff (hnan : ∀ value ∈ logits, ¬ IsNan value) (hk : 0 < k) :
    (∀ argpartition, Lawful argpartition →
        extractTopKSorted argpartition logits k = arraysOf logits (firstIndices logits k)) ↔
      NoTieAtCut (valueKey logits) (List.range logits.length) (min k logits.length) := by
  have hle : min k logits.length ≤ (List.range logits.length).length := by
    rw [List.length_range]
    exact min_le_right _ _
  constructor
  · intro h
    rcases le_or_gt logits.length k with hall | hlt
    · -- nothing stands behind the cut
      intro a _ b hb
      rw [min_eq_right hall, List.drop_eq_nil_of_le] at hb
      · exact nomatch hb
      · rw [ranking, (sortBy_perm _ _).length_eq, List.length_range]
    · have hextract := (extract_ascending hnan hlt).symm.trans (h _ lawful_ascending)
      have hmin : min k logits.length = k := min_eq_left hlt.le
      rw [hmin]
      apply TopSelection.noTieAtCut_of_ascending List.nodup_range
      rw [List.length_range]
      have hidx := congrArg Prod.snd hextract
      rwa [arraysOf, firstIndices, hmin] at hidx
  · intro htie argpartition hlawful
    obtain ⟨chosen, hchosen, hextract⟩ := exists_selection_of_extract hnan hk hlawful
    rw [hextract, TopSelection.sorted_selection_of_noTie List.nodup_range hle htie hchosen]
    rfl

/-! ## Round trips -/

theorem fields_flatMap {β : Type} {encode : β → Bytes} {width : ℕ} (hwidth : 0 < width)
    {items : List β} (h : ∀ item ∈ items, (encode item).length = width) :
    fields width (items.flatMap encode) = items.map encode := by
  have hcount : (items.flatMap encode).length / width = items.length := by
    rw [length_flatMap_of_length h, Nat.mul_div_cancel_left _ hwidth]
  rw [fields, hcount]
  clear hcount
  induction items with
  | nil => rfl
  | cons item items ih =>
    have hitem := h item List.mem_cons_self
    rw [List.length_cons, List.range_succ_eq_map, List.map_cons, List.map_cons, List.map_map,
      List.flatMap_cons, mul_zero, List.drop_zero, List.take_left' hitem]
    congr 1
    rw [← ih fun other hother => h other (List.mem_cons_of_mem _ hother)]
    refine List.map_congr_left fun place _ => ?_
    rw [Function.comp_apply, Nat.mul_succ, Nat.add_comm, ← hitem, List.drop_append,
      List.drop_eq_nil_of_le (by omega), List.nil_append, Nat.add_sub_cancel_left]

theorem fp32Buffer_flatMap (values : List UInt32) :
    fp32Buffer (values.flatMap fun value => LittleEndian.toBytes 4 value.toNat) = values := by
  rw [fp32Buffer, fields_flatMap (by norm_num) fun value _ => LittleEndian.length_toBytes 4 _,
    List.map_map]
  refine (List.map_congr_left fun value _ => ?_).trans (List.map_id _)
  have hlt : value.toNat < 256 ^ 4 := value.toNat_lt
  rw [Function.comp_apply, LittleEndian.toNat_toBytes hlt, UInt32.ofNat_toNat]
  rfl

theorem parseTopKLeaf_eq {leafBytes : Bytes} {third : ℕ} (hlength : leafBytes.length = 12 * third)
    (hpos : 0 < third) :
    parseTopKLeaf leafBytes = .ok (fp32Buffer (leafBytes.take (4 * third)),
      (fields 8 (leafBytes.drop (4 * third))).map LittleEndian.toIntSigned) := by
  have hempty : ¬ 12 * third = 0 := by omega
  have hcheck : ¬ 12 * third % 12 ≠ 0 := by omega
  have hk : 12 * third / 12 = third := Nat.mul_div_cancel_left _ (by norm_num)
  rw [parseTopKLeaf, hlength]
  dsimp only
  rw [if_neg hempty, raiseIf, if_neg hcheck, hk]
  rfl

variable {idx : List ℤ}

theorem parse_serialize {vals : List UInt32} (hlength : vals.length = idx.length)
    (hidx : ∀ index ∈ idx, -2 ^ 63 ≤ index ∧ index < 2 ^ 63) :
    parseTopKLeaf (serializeTopKToBytes vals idx) = .ok (vals, idx) := by
  have hvals := length_flatMap_of_length
    (fun value (_ : value ∈ vals) => LittleEndian.length_toBytes 4 value.toNat)
  have hindices := length_flatMap_of_length
    (fun index (_ : index ∈ idx) => LittleEndian.length_toBytesSigned 8 index)
  have htotal : (serializeTopKToBytes vals idx).length = 12 * vals.length := by
    rw [serializeTopKToBytes, List.length_append, hvals, hindices, ← hlength]
    ring
  rcases Nat.eq_zero_or_pos vals.length with hempty | hpos
  · have hnil : vals = [] := List.eq_nil_of_length_eq_zero hempty
    have hnil' : idx = [] := List.eq_nil_of_length_eq_zero (hlength ▸ hempty)
    rw [hnil, hnil']
    rfl
  · have hread : (fields 8 (idx.flatMap (LittleEndian.toBytesSigned 8))).map
        LittleEndian.toIntSigned = idx := by
      rw [fields_flatMap (by norm_num) fun index _ => LittleEndian.length_toBytesSigned 8 index,
        List.map_map]
      refine (List.map_congr_left fun index hindex => ?_).trans (List.map_id _)
      obtain ⟨hlow, hhigh⟩ := hidx index hindex
      have hlow' : -(256 ^ 8 : ℤ) ≤ 2 * index := by
        norm_num
        omega
      have hhigh' : 2 * index < 256 ^ 8 := by
        norm_num
        omega
      rw [Function.comp_apply, LittleEndian.toIntSigned_toBytesSigned hlow' hhigh', id]
    rw [parseTopKLeaf_eq htotal hpos, ← hvals, serializeTopKToBytes, List.take_left,
      List.drop_left, fp32Buffer_flatMap, hread]

/-! ## The lowest argmax -/

theorem argmax_spec {keys : List ℤ} (h : keys ≠ []) :
    argmax keys < keys.length ∧
      (∀ other < keys.length, keys.getD other 0 ≤ keys.getD (argmax keys) 0) ∧
      ∀ other < argmax keys, keys.getD other 0 < keys.getD (argmax keys) 0 := by
  induction keys with
  | nil => exact absurd rfl h
  | cons key keys ih =>
    cases keys with
    | nil =>
      refine ⟨Nat.zero_lt_one, fun other hother => ?_, fun other hother => ?_⟩
      · obtain rfl : other = 0 := Nat.lt_one_iff.mp hother
        exact le_rfl
      · exact absurd hother (Nat.not_lt_zero other)
    | cons second rest =>
      obtain ⟨hlt, hle, hless⟩ := ih (List.cons_ne_nil _ _)
      have hstep : argmax (key :: second :: rest) =
          if key < (second :: rest).getD (argmax (second :: rest)) 0 then
            argmax (second :: rest) + 1 else 0 := rfl
      rw [hstep]
      split_ifs with hlater
      · -- a later key is larger than the first one
        refine ⟨Nat.succ_lt_succ hlt, fun other hother => ?_, fun other hother => ?_⟩
        · cases other with
          | zero => exact hlater.le
          | succ other => exact hle other (Nat.lt_of_succ_lt_succ hother)
        · cases other with
          | zero => exact hlater
          | succ other => exact hless other (Nat.lt_of_succ_lt_succ hother)
      · refine ⟨Nat.zero_lt_succ _, fun other hother => ?_, fun other hother => ?_⟩
        · cases other with
          | zero => exact le_rfl
          | succ other => exact (hle other (Nat.lt_of_succ_lt_succ hother)).trans (not_lt.mp hlater)
        · exact absurd hother (Nat.not_lt_zero other)

theorem isLowestArgmax_iff : IsLowestArgmax logits index ↔
    IsFirst (valueKey logits) (List.range logits.length) index := by
  constructor
  · rintro ⟨index', heq, hlt, hle, hless⟩
    obtain rfl : index = index' := by exact_mod_cast heq
    refine ⟨List.mem_range.mpr hlt, fun other hother => rank_le_iff.mpr ?_⟩
    rcases (hle other (List.mem_range.mp hother)).lt_or_eq with hkey | hkey
    · exact .inl hkey
    · refine .inr ⟨hkey.symm, ?_⟩
      by_contra hgt
      exact absurd hkey (hless other (not_le.mp hgt)).ne
  · rintro ⟨hmem, hfirst⟩
    refine ⟨index, rfl, List.mem_range.mp hmem, fun other hother => ?_, fun other hother => ?_⟩
    · exact TopSelection.IsFirst.key_le ⟨hmem, hfirst⟩ (List.mem_range.mpr hother)
    · have hother' : other ∈ List.range logits.length :=
        List.mem_range.mpr (hother.trans (List.mem_range.mp hmem))
      rcases rank_le_iff.mp (hfirst other hother') with hkey | ⟨-, hle⟩
      · exact hkey
      · exact absurd hother (not_lt.mpr hle)

variable {token : ℤ}

theorem isLowestArgmax_unique {token' : ℤ} (h : IsLowestArgmax logits token)
    (h' : IsLowestArgmax logits token') : token = token' := by
  obtain ⟨index, rfl, hrest⟩ := h
  obtain ⟨index', rfl, hrest'⟩ := h'
  have hfirst := isLowestArgmax_iff.mp ⟨index, rfl, hrest⟩
  have hfirst' := isLowestArgmax_iff.mp ⟨index', rfl, hrest'⟩
  rw [hfirst.eq hfirst']

theorem valueKey_eq_getD (h : index < logits.length) :
    (logits.map fp32Key).getD index 0 = valueKey logits index := by
  rw [valueKey, List.getD_eq_getElem _ _ h, List.getD_eq_getElem _ _ (by rwa [List.length_map]),
    List.getElem_map]

theorem isLowestArgmax_argmax (h : logits ≠ []) :
    IsLowestArgmax logits (argmax (logits.map fp32Key)) := by
  obtain ⟨hlt, hle, hless⟩ := argmax_spec (mt List.map_eq_nil_iff.mp h)
  rw [List.length_map] at hlt hle
  refine ⟨_, rfl, hlt, fun other hother => ?_, fun other hother => ?_⟩
  · rw [← valueKey_eq_getD hother, ← valueKey_eq_getD hlt]
    exact hle other hother
  · rw [← valueKey_eq_getD (hother.trans hlt), ← valueKey_eq_getD hlt]
    exact hless other hother

/-- A check that accepts one token accepts the lowest argmax alone exactly when it is that token. -/
theorem forall_accepted_iff {accepted : ℤ} :
    (∀ token, accepted = token ↔ IsLowestArgmax logits token) ↔ IsLowestArgmax logits accepted := by
  constructor
  · exact fun hall => (hall accepted).mp rfl
  · intro haccepted token
    constructor
    · rintro rfl
      exact haccepted
    · exact isLowestArgmax_unique haccepted

/-! ## Leaves of a row -/

/-- The leaf of the largest logits. -/
def topKLeaf (argpartition : List UInt32 → ℕ → List ℕ) (logits : List UInt32) (k : ℕ) : Bytes :=
  let (vals, idx) := extractTopKSorted argpartition logits k
  serializeTopKToBytes vals (idx.map fun index : ℕ => (index : ℤ))

/-- The leaf of all logits. -/
def legacyLeaf (logits : List UInt32) : Bytes :=
  logits.flatMap fun value => LittleEndian.toBytes 4 value.toNat

/-- The index that is read from the leaf of all logits when it is taken for a leaf of the largest ones:
the values after the first third. -/
def misreadIndex (logits : List UInt32) : ℤ :=
  LittleEndian.toIntSigned (legacyLeaf ((logits.drop (logits.length / 3)).take 2))

theorem checkTopK_eq_true {first : ℤ} (h : idx.head? = some first) :
    (checkTopK idx token).1 = true ↔ first = token := by
  obtain ⟨rest, rfl⟩ := List.head?_eq_some_iff.mp h
  rw [checkTopK]
  split_ifs with heq <;> simp [heq]

theorem checkLogits_eq_true {keys : List ℤ} (h : keys ≠ []) :
    (checkLogits keys token).1 = true ↔ (argmax keys : ℤ) = token := by
  rw [checkLogits, if_neg h]
  dsimp only
  split_ifs with heq <;> simp [heq]

theorem verify_serialize {vals : List UInt32} {first : ℤ} (hlength : vals.length = idx.length)
    (hidx : ∀ index ∈ idx, -2 ^ 63 ≤ index ∧ index < 2 ^ 63) (hfirst : idx.head? = some first) :
    (verifyFp16Argmax (serializeTopKToBytes vals idx) token).1 = true ↔ first = token := by
  have htotal : (serializeTopKToBytes vals idx).length = 12 * vals.length := by
    rw [serializeTopKToBytes, List.length_append,
      length_flatMap_of_length fun value _ => LittleEndian.length_toBytes 4 value.toNat,
      length_flatMap_of_length fun index _ => LittleEndian.length_toBytesSigned 8 index, ← hlength]
    ring
  have hpos : 0 < idx.length := by
    obtain ⟨rest, rfl⟩ := List.head?_eq_some_iff.mp hfirst
    exact Nat.zero_lt_succ _
  have hnonzero : ¬ 12 * vals.length = 0 := by omega
  have hmultiple : 12 * vals.length % 12 = 0 := by omega
  rw [verifyFp16Argmax]
  rw [htotal, if_neg hnonzero, if_pos hmultiple, parse_serialize hlength hidx]
  exact checkTopK_eq_true hfirst

/-- The leaf of all logits shows their argmax, unless its length is one of a leaf of the largest ones:
then it shows the misread index. -/
theorem verify_legacyLeaf (h : logits ≠ []) :
    (verifyFp16Argmax (legacyLeaf logits) token).1 = true ↔
      (if 3 ∣ logits.length then misreadIndex logits else argmax (logits.map fp32Key)) = token := by
  have htotal : (legacyLeaf logits).length = 4 * logits.length :=
    length_flatMap_of_length fun value _ => LittleEndian.length_toBytes 4 value.toNat
  have hpos : 0 < logits.length := List.length_pos_iff.mpr h
  have hnonzero : ¬ 4 * logits.length = 0 := by omega
  rw [verifyFp16Argmax]
  rw [htotal, if_neg hnonzero]
  by_cases hthird : 3 ∣ logits.length
  · -- the values after the first third are read as the index array
    obtain ⟨third, hlength⟩ := hthird
    have hmultiple : 4 * logits.length % 12 = 0 := by omega
    have htotal' : (legacyLeaf logits).length = 12 * third := by omega
    have hsplit : legacyLeaf logits =
        legacyLeaf (logits.take third) ++ legacyLeaf (logits.drop third) := by
      rw [legacyLeaf, legacyLeaf, legacyLeaf, ← List.flatMap_append, List.take_append_drop]
    have hfront : (legacyLeaf (logits.take third)).length = 4 * third := by
      rw [legacyLeaf, length_flatMap_of_length fun value _ =>
        LittleEndian.length_toBytes 4 value.toNat, List.length_take]
      omega
    have hdrop : (legacyLeaf logits).drop (4 * third) = legacyLeaf (logits.drop third) := by
      rw [hsplit, List.drop_left' hfront]
    have hindices : (fields 8 (legacyLeaf (logits.drop third))).head? =
        some (legacyLeaf ((logits.drop third).take 2)) := by
      have hrest : (legacyLeaf (logits.drop third)).length = 4 * (2 * third) := by
        rw [legacyLeaf, length_flatMap_of_length fun value _ =>
          LittleEndian.length_toBytes 4 value.toNat, List.length_drop]
        omega
      have hcount : ∃ n, (legacyLeaf (logits.drop third)).length / 8 = n + 1 :=
        ⟨third - 1, by omega⟩
      obtain ⟨n, hn⟩ := hcount
      have htwo : legacyLeaf (logits.drop third) =
          legacyLeaf ((logits.drop third).take 2) ++ legacyLeaf ((logits.drop third).drop 2) := by
        rw [legacyLeaf, legacyLeaf, legacyLeaf, ← List.flatMap_append, List.take_append_drop]
      have height : (legacyLeaf ((logits.drop third).take 2)).length = 8 := by
        rw [legacyLeaf, length_flatMap_of_length fun value _ =>
          LittleEndian.length_toBytes 4 value.toNat, List.length_take, List.length_drop]
        omega
      rw [fields, hn, List.range_succ_eq_map, List.map_cons, List.head?_cons, mul_zero,
        List.drop_zero, htwo, List.take_left' height]
    have hfirst : ((fields 8 (legacyLeaf (logits.drop third))).map
        LittleEndian.toIntSigned).head? = some (misreadIndex logits) := by
      rw [List.head?_map, hindices, Option.map_some, misreadIndex, hlength,
        Nat.mul_div_cancel_left _ (by norm_num)]
    rw [if_pos hmultiple, parseTopKLeaf_eq htotal' (by omega), hdrop, if_pos ⟨third, hlength⟩]
    exact checkTopK_eq_true hfirst
  · have hmultiple : ¬ 4 * logits.length % 12 = 0 := by omega
    have hfour : 4 * logits.length % 4 = 0 := by omega
    rw [if_neg hmultiple, if_pos hfour, legacyLeaf, fp32Buffer_flatMap, if_neg hthird]
    exact checkLogits_eq_true (mt List.map_eq_nil_iff.mp h)

theorem head?_firstIndices (hk : 0 < k) (h : logits ≠ []) :
    ∃ first, (firstIndices logits k).head? = some first ∧
      IsFirst (valueKey logits) (List.range logits.length) first := by
  have hpos : 0 < logits.length := List.length_pos_iff.mpr h
  have hlength : (ranked logits).length = logits.length := by
    rw [ranked, ranking, (sortBy_perm _ _).length_eq, List.length_range]
  cases hranked : ranked logits with
  | nil =>
    rw [hranked] at hlength
    exact absurd hlength hpos.ne
  | cons first rest =>
    refine ⟨first, ?_, ?_, fun other hother => ?_⟩
    · obtain ⟨m, hm⟩ : ∃ m, min k logits.length = m + 1 := ⟨min k logits.length - 1, by omega⟩
      rw [firstIndices, hranked, hm, List.take_succ_cons, List.head?_cons]
    · exact List.mem_range.mpr (lt_of_mem_ranked (hranked ▸ List.mem_cons_self))
    · have hother' : other ∈ first :: rest := hranked ▸ TopSelection.mem_ranking.mpr hother
      have hsorted := pairwise_sortBy (rank (valueKey logits)) (List.range logits.length)
      rw [show sortBy (rank (valueKey logits)) (List.range logits.length) = first :: rest from
        hranked] at hsorted
      rcases List.mem_cons.mp hother' with rfl | hrest
      · exact le_rfl
      · exact (List.pairwise_cons.mp hsorted).1 other hrest

theorem verify_arraysOf {idx : List ℕ} {first : ℕ} (hsize : logits.length < 2 ^ 63)
    (hidx : ∀ index ∈ idx, index < logits.length) (hfirst : idx.head? = some first) :
    (verifyFp16Argmax (serializeTopKToBytes (arraysOf logits idx).1
      ((arraysOf logits idx).2.map fun index : ℕ => (index : ℤ))) token).1 = true ↔
        (first : ℤ) = token := by
  apply verify_serialize
  · rw [arraysOf, List.length_map, List.length_map]
  · intro index hindex
    obtain ⟨place, hplace, rfl⟩ := List.mem_map.mp hindex
    have hlt := hidx place hplace
    omega
  · rw [arraysOf, List.head?_map, hfirst, Option.map_some]

/-- The formats of a leaf agree on a row: the extraction is the beginning of the ranking, a leaf is
parsed to what was written, and both leaves of the row show its lowest argmax and no other token. -/
structure Agrees (row : LogitsRow) (k : ℕ) : Prop where
  extract : ∀ argpartition, Lawful argpartition →
    extractTopKSorted argpartition row.bits k = arraysOf row.bits (firstIndices row.bits k)
  parse : ∀ (vals : List UInt32) (idx : List ℤ), vals.length = idx.length →
    (∀ index ∈ idx, -2 ^ 63 ≤ index ∧ index < 2 ^ 63) →
    parseTopKLeaf (serializeTopKToBytes vals idx) = .ok (vals, idx)
  topK : ∀ argpartition, Lawful argpartition → ∀ token,
    (verifyFp16Argmax (topKLeaf argpartition row.bits k) token).1 = true ↔
      IsLowestArgmax row.bits token
  legacy : ∀ token, (verifyFp16Argmax (legacyLeaf row.bits) token).1 = true ↔
    IsLowestArgmax row.bits token

/-- The formats of a leaf agree on a row exactly when no value stands on both sides of the cut, and the
number of all logits is no multiple of three or the misread index is the lowest argmax. -/
theorem argmaxLeaves_agree_iff (row : LogitsRow) (k : ℕ) (hk : 1 ≤ k) :
    Agrees row k ↔
      NoTieAtCut (valueKey row.bits) (List.range row.bits.length) (min k row.bits.length) ∧
        (3 ∣ row.bits.length → IsLowestArgmax row.bits (misreadIndex row.bits)) := by
  have hlegacy : (∀ token, (verifyFp16Argmax (legacyLeaf row.bits) token).1 = true ↔
      IsLowestArgmax row.bits token) ↔
        (3 ∣ row.bits.length → IsLowestArgmax row.bits (misreadIndex row.bits)) := by
    simp only [verify_legacyLeaf row.ne_nil]
    rw [forall_accepted_iff]
    split_ifs with hthird
    · exact ⟨fun h _ => h, fun h => h hthird⟩
    · exact iff_of_true (isLowestArgmax_argmax row.ne_nil) fun h => absurd h hthird
  constructor
  · intro h
    exact ⟨(extractTopKSorted_iff row.not_nan hk).mp h.extract, hlegacy.mp h.legacy⟩
  · rintro ⟨htie, hreadable⟩
    have hextract := (extractTopKSorted_iff row.not_nan hk).mpr htie
    refine ⟨hextract, fun vals idx => parse_serialize, ?_, hlegacy.mpr hreadable⟩
    intro argpartition hlawful token
    obtain ⟨first, hhead, hfirst⟩ := head?_firstIndices hk row.ne_nil
    rw [topKLeaf, hextract argpartition hlawful]
    have hidx : ∀ index ∈ firstIndices row.bits k, index < row.bits.length := fun index hindex =>
      lt_of_mem_ranked (List.take_subset _ _ hindex)
    exact (verify_arraysOf row.length_lt hidx hhead).trans
      (forall_accepted_iff.mpr (isLowestArgmax_iff.mpr hfirst) token)

/-- The row `1.0, 2.0`. -/
def smallRow : LogitsRow where
  bits := [1065353216, 1073741824]
  ne_nil := by decide
  length_lt := by decide
  not_nan := by
    have hone : ¬ IsNan 1065353216 := by
      unfold IsNan
      decide
    have htwo : ¬ IsNan 1073741824 := by
      unfold IsNan
      decide
    exact List.forall_mem_cons.mpr ⟨hone, List.forall_mem_singleton.mpr htwo⟩

/-- The leaves of the small row agree. -/
theorem argmaxLeaves_agree_small : Agrees smallRow 1 := by
  refine (argmaxLeaves_agree_iff smallRow 1 le_rfl).mpr ⟨?_, fun h => absurd h (by decide)⟩
  have hranking : ranking (valueKey smallRow.bits) (List.range 2) = [1, 0] :=
    (TopSelection.sortBy_rank_eq (List.Perm.swap 1 0 [])).trans
      (StableSort.sortBy_of_pairwise _ (by decide +kernel))
  show NoTieAtCut (valueKey smallRow.bits) (List.range 2) 1
  rw [NoTieAtCut, hranking]
  decide +kernel

/-- The row `1.0, 1.0`. -/
def tiedBits : List UInt32 := [1065353216, 1065353216]

theorem extractTopKSorted_tiedBits :
    extractTopKSorted (fun logits _ => ascending (valueKey logits) (List.range logits.length))
      tiedBits 1 = ([1065353216], [1]) := by
  have hascending : ascending (valueKey tiedBits) (List.range tiedBits.length) = [0, 1] :=
    StableSort.sortBy_of_pairwise _ (by decide +kernel)
  rw [extractTopKSorted]
  dsimp only
  rw [if_neg (by decide), hascending]
  show lexsorted [1065353216] [1] = _
  rw [lexsorted, List.zip_cons_cons, List.zip_nil_left,
    StableSort.sortBy_of_pairwise _ (List.pairwise_singleton _ _)]
  rfl

/-- A partition may keep the second of two equal logits, and the leaf then refuses the lowest argmax.
The leaf of three logits is taken for one of a single largest logit, and refuses their argmax. -/
theorem argmaxLeaves_disagree :
    (∃ argpartition, Lawful argpartition ∧
      extractTopKSorted argpartition tiedBits 1 = ([1065353216], [1]) ∧
      firstIndices tiedBits 1 = [0] ∧ IsLowestArgmax tiedBits 0 ∧
      (verifyFp16Argmax (topKLeaf argpartition tiedBits 1) 0).1 = false) ∧
    IsLowestArgmax [1065353216, 1073741824, 1077936128] 2 ∧
      (verifyFp16Argmax (legacyLeaf [1065353216, 1073741824, 1077936128]) 2).1 = false := by
  refine ⟨⟨_, lawful_ascending, extractTopKSorted_tiedBits, ?_, ⟨0, rfl, ?_, ?_, ?_⟩, ?_⟩,
    ⟨2, rfl, ?_, ?_, ?_⟩, ?_⟩
  · have hranked : ranked tiedBits = [0, 1] :=
      StableSort.sortBy_of_pairwise _ (by decide +kernel)
    rw [firstIndices, hranked]
    rfl
  · decide
  · decide +kernel
  · decide +kernel
  · rw [topKLeaf, extractTopKSorted_tiedBits]
    decide +kernel
  · decide
  · decide +kernel
  · decide +kernel
  · decide +kernel

end Verathos.Sampling
