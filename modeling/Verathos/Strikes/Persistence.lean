import Verathos.Basic
import Verathos.Strikes.Tracker

/-!
# A restart of the strike tracker

What `to_json` writes, `from_json` reads: an entry comes back under its key with the same epochs and
endpoint, and with the penalty that the thresholds of the new process ask for.

* `Valid`: what holds of every tracker that a process can have;
* `decodeEntry_encode`: one entry;
* `fromJson_toJson`: the whole text.
-/

namespace Verathos.Strikes

/-- What holds of the state of an entry. -/
structure HardProofStrikeState.Valid (threshold : ℤ) (state : HardProofStrikeState) : Prop where
  nonempty : state.failureEpochs.Nonempty
  nonneg : ∀ epoch ∈ state.failureEpochs, 0 ≤ epoch
  later : ∀ epoch ∈ state.cleanEpochs, ∀ failed ∈ state.failureEpochs, failed < epoch
  penalty : threshold ≤ state.failureEpochs.card → state.penaltyRequired = true

/-- The thresholds that `configure` takes. -/
def ThresholdsInRange (failures clean : ℤ) : Prop :=
  (1 ≤ failures ∧ failures ≤ 10) ∧ 1 ≤ clean ∧ clean ≤ 100

instance (failures clean : ℤ) : Decidable (ThresholdsInRange failures clean) :=
  inferInstanceAs (Decidable (_ ∧ _))

/-- A key in the form under which entries are stored. -/
structure KeyValid (lc : LowerCase) (key : Key) : Prop where
  lower : lc.lower key.1 = key.1
  nonempty : key.1 ≠ ""
  nonneg : 0 ≤ key.2

/-- What holds of a tracker. -/
structure HardProofStrikeTracker.Valid (lc : LowerCase) (t : HardProofStrikeTracker) : Prop where
  thresholds : ThresholdsInRange t.failureEpochsForPenalty t.cleanHardAuditEpochsForReset
  key : ∀ key state, t.states.get key = some state → KeyValid lc key
  state : ∀ key state, t.states.get key = some state → state.Valid t.failureEpochsForPenalty

variable (threshold : ℤ)

@[simp]
theorem applyThreshold_failureEpochs (state : HardProofStrikeState) :
    (state.applyThreshold threshold).failureEpochs = state.failureEpochs := by
  unfold HardProofStrikeState.applyThreshold
  split_ifs <;> rfl

@[simp]
theorem applyThreshold_cleanEpochs (state : HardProofStrikeState) :
    (state.applyThreshold threshold).cleanEpochs = state.cleanEpochs := by
  unfold HardProofStrikeState.applyThreshold
  split_ifs <;> rfl

theorem applyThreshold_penaltyRequired (state : HardProofStrikeState) :
    (state.applyThreshold threshold).penaltyRequired = true ↔
      threshold ≤ state.failureEpochs.card ∨ state.penaltyRequired = true := by
  unfold HardProofStrikeState.applyThreshold
  split_ifs with h <;> simp [h]

variable {state : HardProofStrikeState}

theorem HardProofStrikeState.Valid.applyThreshold_eq {threshold : ℤ} (h : state.Valid threshold) :
    state.applyThreshold threshold = state := by
  unfold HardProofStrikeState.applyThreshold
  split_ifs with hle
  · rw [← h.penalty hle]
  · rfl

theorem HardProofStrikeState.Valid.applyThreshold {threshold threshold' : ℤ}
    (h : state.Valid threshold) :
    (state.applyThreshold threshold').Valid threshold' where
  nonempty := by simpa using h.nonempty
  nonneg := by simpa using h.nonneg
  later := by simpa using h.later
  penalty hle := by
    rw [applyThreshold_failureEpochs] at hle
    exact (applyThreshold_penaltyRequired _ _).mpr (Or.inl hle)

/-! ## Keys -/

theorem rsplitBar_eq_none {text : List Char} (h : '|' ∉ text) : rsplitBar text = none := by
  induction text with
  | nil => rfl
  | cons c text ih =>
    rw [List.mem_cons, not_or] at h
    rw [rsplitBar, ih h.2]
    exact if_neg fun hc => h.1 hc.symm

theorem rsplitBar_append {front back : List Char} (h : '|' ∉ back) :
    rsplitBar (front ++ '|' :: back) = some (front, back) := by
  induction front with
  | nil => rw [List.nil_append, rsplitBar, rsplitBar_eq_none h, if_pos rfl]
  | cons c front ih => rw [List.cons_append, rsplitBar, ih]

section

variable {n : ℕ}

theorem isDigit_of_mem {c : Char} (h : c ∈ Nat.toDigits 10 n) : c.isDigit = true :=
  Nat.isDigit_of_mem_toDigits (by decide) (by decide) h

theorem isSpace_eq_false {c : Char} (h : c.isDigit = true) : isSpace c = false := by
  rw [Char.isDigit, Bool.and_eq_true, decide_eq_true_eq, decide_eq_true_eq] at h
  have h₁ : 48 ≤ c.toNat := h.1
  have h₂ : c.toNat ≤ 57 := h.2
  simp [isSpace]
  omega

theorem digitGroups_eq_some {digits : List Char} (h : ∀ c ∈ digits, c.isDigit = true)
    {afterDigit : Bool} (hne : digits ≠ [] ∨ afterDigit = true) :
    digitGroups afterDigit digits = some digits := by
  induction digits generalizing afterDigit with
  | nil => simpa [digitGroups] using hne
  | cons c digits ih =>
    rw [digitGroups, if_pos (h c List.mem_cons_self),
      ih (fun d hd => h d (List.mem_cons_of_mem c hd)) (Or.inr rfl)]
    rfl

theorem intLiteral_dumpsInt {n : ℤ} (hn : 0 ≤ n) : intLiteral (Json.dumpsInt n) = some n := by
  rw [Json.dumpsInt, if_neg (not_lt.mpr hn), intLiteral]
  have hdigits : ∀ c ∈ Nat.toDigits 10 n.natAbs, c.isDigit = true := fun c hc => isDigit_of_mem hc
  have hne : Nat.toDigits 10 n.natAbs ≠ [] := Nat.toDigits_ne_nil
  have hvalue := @Nat.ofDigitChars_ten_toDigits n.natAbs
  generalize Nat.toDigits 10 n.natAbs = digits at hdigits hne hvalue
  obtain ⟨c, rest, rfl⟩ := List.exists_cons_of_ne_nil hne
  have hc := hdigits c List.mem_cons_self
  -- nothing is stripped, neither blanks nor a sign
  have hfront : (c :: rest).dropWhile isSpace = c :: rest := by
    rw [List.dropWhile_cons_of_neg (by simp [isSpace_eq_false hc])]
  have hback : (c :: rest).rdropWhile isSpace = c :: rest := by
    rw [List.rdropWhile_eq_self_iff]
    intro hne'
    simpa using isSpace_eq_false (hdigits _ (List.getLast_mem hne'))
  have hsign : c ≠ '-' ∧ c ≠ '+' := by
    constructor <;>
      · rintro rfl
        exact absurd hc (by decide)
  have hskip : Json.skipSign (c :: rest) = c :: rest := by
    rw [Json.skipSign, List.head?_cons, if_neg (by simpa using hsign)]
  rw [hfront, hback, hskip, digitGroups_eq_some hdigits (Or.inl (List.cons_ne_nil c rest))]
  have hdash : (c :: rest).head? ≠ some '-' := by simpa using hsign.1
  simp only [Option.map_some, hvalue, if_neg hdash]
  congr 1
  omega

theorem bar_not_mem_dumpsInt (n : ℤ) : '|' ∉ Json.dumpsInt n := by
  rw [Json.dumpsInt]
  have hdigits : '|' ∉ Nat.toDigits 10 n.natAbs := fun hmem =>
    absurd (isDigit_of_mem hmem) (by decide)
  split_ifs
  · rw [List.mem_cons, not_or]
    exact ⟨by decide, hdigits⟩
  · exact hdigits

theorem rsplitBar_encodeKey (key : Key) :
    rsplitBar (encodeKey key).toList = some (key.1.toList, Json.dumpsInt key.2) := by
  rw [encodeKey, String.toList_ofList]
  exact rsplitBar_append (bar_not_mem_dumpsInt key.2)

theorem encodeKey_inj {key key' : Key} (h : 0 ≤ key.2) (h' : 0 ≤ key'.2)
    (heq : encodeKey key = encodeKey key') : key = key' := by
  have hsplit := rsplitBar_encodeKey key
  rw [heq, rsplitBar_encodeKey key', Option.some.injEq, Prod.mk.injEq] at hsplit
  have hindex := intLiteral_dumpsInt h
  rw [← hsplit.2, intLiteral_dumpsInt h', Option.some.injEq] at hindex
  exact Prod.ext (String.toList_injective hsplit.1.symm) hindex.symm

end

/-! ## Entries -/

theorem epochList_epochsJson {epochs : Finset ℤ} (h : ∀ epoch ∈ epochs, 0 ≤ epoch) :
    epochList (some (epochsJson epochs)) = some (epochs.sort (· ≤ ·)) := by
  have hall : ∀ epoch ∈ epochs.sort (· ≤ ·), 0 ≤ epoch := fun epoch hmem =>
    h epoch ((Finset.mem_sort _).mp hmem)
  rw [epochsJson, epochList]
  generalize epochs.sort (· ≤ ·) = items at hall
  induction items with
  | nil => rfl
  | cons n items ih =>
    rw [List.map_cons, List.mapM_cons, ih fun epoch hmem => hall epoch (List.mem_cons_of_mem n hmem)]
    dsimp only
    rw [if_pos (hall n List.mem_cons_self)]
    rfl

theorem sortKeys_stateJson (state : HardProofStrikeState) :
    (stateJson state).sortKeys =
      .obj [("clean_epochs", epochsJson state.cleanEpochs), ("endpoint", .str state.endpoint),
        ("failure_epochs", epochsJson state.failureEpochs),
        ("penalty_required", .bool state.penaltyRequired)] := by
  simp [stateJson, Json.sortKeys, Json.sortKeysMembers_eq, epochsJson, Json.sortKeysItems_eq,
    List.insertionSort, Function.comp_def]

theorem decodeEntry_encode {lc : LowerCase} {key : Key} {threshold threshold' : ℤ}
    (hkey : KeyValid lc key) (hstate : state.Valid threshold) :
    decodeEntry lc threshold' (encodeKey key) (stateJson state).sortKeys =
      .ok (key, state.applyThreshold threshold') := by
  have hclean : ∀ epoch ∈ state.cleanEpochs, 0 ≤ epoch := by
    intro epoch hmem
    obtain ⟨failed, hfailed⟩ := hstate.nonempty
    exact (hstate.nonneg failed hfailed).trans (hstate.later epoch hmem failed hfailed).le
  set members : List (String × Json) :=
    [("clean_epochs", epochsJson state.cleanEpochs), ("endpoint", .str state.endpoint),
      ("failure_epochs", epochsJson state.failureEpochs),
      ("penalty_required", .bool state.penaltyRequired)] with hmembers
  have hentries : (Json.dict members).entries = members :=
    OrderedDict.entries_ofList (by simp [hmembers])
  have hfields : ((Json.dict members).entries.map Prod.fst).toFinset = entryFields.toFinset := by
    rw [hentries]
    exact (by decide : (["clean_epochs", "endpoint", "failure_epochs", "penalty_required"] :
      List String).toFinset = entryFields.toFinset)
  have hget : (Json.dict members).get "failure_epochs" = some (epochsJson state.failureEpochs) ∧
      (Json.dict members).get "clean_epochs" = some (epochsJson state.cleanEpochs) ∧
      (Json.dict members).get "penalty_required" = some (.bool state.penaltyRequired) ∧
      (Json.dict members).get "endpoint" = some (.str state.endpoint) := by
    simp only [OrderedDict.get_eq_some, hentries]
    simp [hmembers]
  unfold decodeEntry
  rw [rsplitBar_encodeKey, sortKeys_stateJson, ← hmembers]
  dsimp only
  rw [if_neg (not_not.mpr hfields), intLiteral_dumpsInt hkey.nonneg, hget.1, hget.2.1, hget.2.2.1,
    hget.2.2.2, epochList_epochsJson hstate.nonneg, epochList_epochsJson hclean]
  dsimp only
  have hsorted : ¬ (key.1.toList = [] ∨ key.2 < 0 ∨ state.failureEpochs.sort (· ≤ ·) = [] ∨
      ¬ (state.failureEpochs.sort (· ≤ ·)).Nodup ∨ ¬ (state.cleanEpochs.sort (· ≤ ·)).Nodup) := by
    have hsort : state.failureEpochs.sort (· ≤ ·) ≠ [] := by
      obtain ⟨failed, hfailed⟩ := hstate.nonempty
      exact List.ne_nil_of_mem ((Finset.mem_sort _).mpr hfailed)
    simp [hkey.nonempty, hkey.nonneg, hsort, Finset.sort_nodup]
  have hdisjoint : ¬ ∃ epoch ∈ state.cleanEpochs.sort (· ≤ ·),
      epoch ∈ state.failureEpochs.sort (· ≤ ·) := by
    rintro ⟨epoch, hmem, hfailed⟩
    rw [Finset.mem_sort] at hmem hfailed
    exact lt_irrefl _ (hstate.later epoch hmem epoch hfailed)
  rw [if_neg hsorted, if_neg hdisjoint, String.ofList_toList, Finset.sort_toFinset,
    Finset.sort_toFinset, canonicalKey, hkey.lower]

/-! ## The text -/

theorem plain_stateJson (state : HardProofStrikeState) : (stateJson state).sortKeys.Plain := by
  rw [sortKeys_stateJson]
  simp [Json.Plain, Json.PlainMembers, epochsJson, Json.plainItems_iff]

/-- The pairs of `to_json`, in the order of the text. -/
def sortedEntries (items : List (Key × HardProofStrikeState)) : List (String × Json) :=
  (items.map fun item => (encodeKey item.1, (stateJson item.2).sortKeys)).insertionSort
    fun a b => a.1 ≤ b.1

theorem sortedEntries_perm (items : List (Key × HardProofStrikeState)) :
    (sortedEntries items).Perm
      (items.map fun item => (encodeKey item.1, (stateJson item.2).sortKeys)) :=
  List.perm_insertionSort _ _

section

variable {lc : LowerCase} {t : HardProofStrikeTracker}

theorem sortBy_entries_perm (t : HardProofStrikeTracker) :
    (StableSort.sortBy (fun item => toLex item.1) t.states.entries).Perm t.states.entries :=
  StableSort.sortBy_perm _ _

theorem HardProofStrikeTracker.Valid.nodup_encodeKey (ht : t.Valid lc)
    {items : List (Key × HardProofStrikeState)} (hitems : items.Perm t.states.entries) :
    (items.map fun item => encodeKey item.1).Nodup := by
  have hkeys : (items.map Prod.fst).Nodup :=
    (hitems.map Prod.fst).nodup_iff.mpr t.states.nodup_keys
  have hnonneg : ∀ key ∈ items.map Prod.fst, (0 : ℤ) ≤ key.2 := by
    intro key hkey
    obtain ⟨⟨key, state⟩, hmem, rfl⟩ := List.mem_map.mp hkey
    exact (ht.key key state (OrderedDict.get_eq_some.mpr (hitems.mem_iff.mp hmem))).nonneg
  have hmap : (items.map fun item => encodeKey item.1) = (items.map Prod.fst).map encodeKey := by
    rw [List.map_map]
    rfl
  rw [hmap]
  exact hkeys.map_on fun key hkey key' hkey' heq =>
    encodeKey_inj (hnonneg key hkey) (hnonneg key' hkey') heq

theorem ofString_toJson (ht : t.Valid lc) :
    ∃ items, items.Perm t.states.entries ∧
      Json.ofString (toJson t) =
        some (.obj [("entries", .obj (sortedEntries items)), ("version", .int 1)]) := by
  set items := StableSort.sortBy (fun item => toLex item.1) t.states.entries with hitems
  have hperm := sortBy_entries_perm t
  have hentries : (entriesJson t).entries =
      items.map fun item => (encodeKey item.1, stateJson item.2) := by
    apply OrderedDict.entries_ofList
    rw [List.map_map]
    exact ht.nodup_encodeKey hperm
  have hsorted : (Json.obj [("version", .int 1), ("entries", .obj (entriesJson t).entries)]).sortKeys
      = .obj [("entries", .obj (sortedEntries items)), ("version", .int 1)] := by
    rw [hentries]
    simp [Json.sortKeys, Json.sortKeysMembers_eq, List.insertionSort, sortedEntries, List.map_map,
      Function.comp_def]
  refine ⟨items, hperm, ?_⟩
  rw [toJson, Json.ofString_dumpsSorted, hsorted]
  rw [hsorted]
  have hplain : ∀ entry ∈ sortedEntries items, entry.2.Plain := by
    intro entry hentry
    obtain ⟨item, -, rfl⟩ := List.mem_map.mp ((sortedEntries_perm items).mem_iff.mp hentry)
    exact plain_stateJson item.2
  simpa [Json.Plain, Json.PlainMembers] using Json.plainMembers_iff.mpr hplain

theorem mapM_decodeEntry (ht : t.Valid lc) {items : List (Key × HardProofStrikeState)}
    (hitems : items.Perm t.states.entries) (failures : ℤ) :
    ∃ decoded, (sortedEntries items).mapM (fun entry => decodeEntry lc failures entry.1 entry.2) =
        .ok decoded ∧
      decoded.Perm (t.states.mapValues (·.applyThreshold failures)).entries := by
  have hdecode : ∀ item ∈ items,
      decodeEntry lc failures (encodeKey item.1) (stateJson item.2).sortKeys =
        .ok (item.1, item.2.applyThreshold failures) := by
    intro item hitem
    have hget : t.states.get item.1 = some item.2 :=
      OrderedDict.get_eq_some.mpr (hitems.mem_iff.mp hitem)
    exact decodeEntry_encode (ht.key _ _ hget) (ht.state _ _ hget)
  -- what each pair of the text stands for
  let decode (entry : String × Json) : Key × HardProofStrikeState :=
    ((decodeEntry lc failures entry.1 entry.2).toOption).getD (("", 0), {})
  have hmap : ∀ entry ∈ sortedEntries items,
      decodeEntry lc failures entry.1 entry.2 = .ok (decode entry) := by
    intro entry hentry
    obtain ⟨item, hitem, rfl⟩ := List.mem_map.mp ((sortedEntries_perm items).mem_iff.mp hentry)
    simp [decode, hdecode item hitem, Except.toOption]
  refine ⟨(sortedEntries items).map decode, mapM_eq_ok_map hmap, ?_⟩
  have hperm := (sortedEntries_perm items).map decode
  rw [List.map_map] at hperm
  refine hperm.trans ?_
  have himage : items.map (decode ∘ fun item => (encodeKey item.1, (stateJson item.2).sortKeys)) =
      items.map fun item => (item.1, item.2.applyThreshold failures) := by
    refine List.map_congr_left fun item hitem => ?_
    simp [decode, hdecode item hitem, Except.toOption]
  rw [himage]
  exact hitems.map _

theorem configure_of_range {failures clean : ℤ} (hrange : ThresholdsInRange failures clean)
    (t : HardProofStrikeTracker) :
    configure failures clean t =
      .ok
        { states := t.states.mapValues (·.applyThreshold failures)
          failureEpochsForPenalty := failures
          cleanHardAuditEpochsForReset := clean } := by
  rw [configure, if_neg (not_not.mpr hrange.1), if_neg (not_not.mpr hrange.2)]

theorem fromJson_toJson (ht : t.Valid lc) {failures clean : ℤ}
    (hrange : ThresholdsInRange failures clean) :
    ∃ t', fromJson lc (toJson t) failures clean = .ok t' ∧
      t'.failureEpochsForPenalty = failures ∧ t'.cleanHardAuditEpochsForReset = clean ∧
      ∀ key, t'.states.get key = (t.states.get key).map (·.applyThreshold failures) := by
  obtain ⟨items, hitems, htext⟩ := ofString_toJson ht
  obtain ⟨decoded, hdecoded, hperm⟩ := mapM_decodeEntry ht hitems failures
  have hne : toJson t ≠ "" := by
    intro hempty
    rw [hempty, Json.ofString_empty] at htext
    exact absurd htext (by simp)
  have hnodup : ((sortedEntries items).map Prod.fst).Nodup := by
    refine (((sortedEntries_perm items).map Prod.fst).nodup_iff).mpr ?_
    rw [List.map_map]
    exact ht.nodup_encodeKey hitems
  set members : List (String × Json) :=
    [("entries", .obj (sortedEntries items)), ("version", .int 1)] with hmembers
  have hmemberEntries : (Json.dict members).entries = members :=
    OrderedDict.entries_ofList (by simp [hmembers])
  have hversion : (Json.dict members).get "version" = some (.int 1) := by
    rw [OrderedDict.get_eq_some, hmemberEntries]
    simp [hmembers]
  have hentries : (Json.dict members).get "entries" = some (.obj (sortedEntries items)) := by
    rw [OrderedDict.get_eq_some, hmemberEntries]
    simp [hmembers]
  have hdict : (Json.dict (sortedEntries items)).entries = sortedEntries items :=
    OrderedDict.entries_ofList hnodup
  have hone : isVersionOne (some (.int 1)) = true := rfl
  refine ⟨⟨.ofList decoded, failures, clean⟩, ?_, rfl, rfl, fun key => ?_⟩
  · rw [fromJson, create, configure_of_range hrange, bind_eq_ok]
    refine ⟨_, rfl, ?_⟩
    rw [if_neg hne, htext]
    dsimp only
    rw [hversion, hentries, hone]
    dsimp only
    rw [hdict, hdecoded]
    rfl
  · exact (OrderedDict.get_ofList_of_perm hperm key).trans (OrderedDict.get_mapValues _ _ key)

end

end Verathos.Strikes
