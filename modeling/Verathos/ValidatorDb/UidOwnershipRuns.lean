import Verathos.ValidatorDb.UidOwnership

/-!
# Runs of `reconcile_uid_owner`

Every state that calls reach has one UID for every address, and the start epoch of a UID is the
epoch at which its recorded owner last changed. The start epochs are compared with what an observer
of the recorded owners writes down (`OwnerTrace`).

* `Valid`, `Valid.after`: the invariant of the table;
* `get_reconcile`: the row of every UID after a call;
* `changed_iff`: when a call reports a change;
* `uidOwnership_holds`: the properties of every run;
* `takeover_starts_epoch`: a first row may start at the epoch of its call without an earlier owner.
-/

namespace Verathos.UidOwnership

variable {lc : SqlLower} {s s' : UidState} {call : OwnerCall} {uid : ℤ} {row : OwnerRow}

/-! ## Recorded owners -/

/-- The recorded hotkey and address. -/
def OwnerRow.owner (row : OwnerRow) : String × String := (row.hotkeySs58, row.evmAddress)

/-- The owner recorded for a UID. -/
def UidState.owner (s : UidState) (uid : ℤ) : Option (String × String) :=
  (s.owners.get uid).map OwnerRow.owner

/-- The owner that a call names. -/
def OwnerCall.owner (lc : SqlLower) (call : OwnerCall) : String × String :=
  (call.hotkeySs58, call.evm lc)

/-- No address is recorded for two UIDs. -/
def AddressesUnique (s : UidState) : Prop :=
  ∀ uid uid' row row', s.owners.get uid = some row → s.owners.get uid' = some row' →
    row.evmAddress ≠ "" → row.evmAddress = row'.evmAddress → uid = uid'

/-- The cache shows another owner of the UID. -/
def EarlierOwner (lc : SqlLower) (s : UidState) (call : OwnerCall) : Prop :=
  ∃ row ∈ s.cache, row.bittensorUid = some call.uid ∧ OtherOwner lc call row

/-- The address of a call is recorded for another UID. -/
def Takeover (lc : SqlLower) (s : UidState) (call : OwnerCall) : Prop :=
  call.evm lc ≠ "" ∧
    ∃ entry ∈ s.owners.entries, entry.1 ≠ call.uid ∧ entry.2.evmAddress = call.evm lc

instance : Decidable (EarlierOwner lc s call) := inferInstanceAs (Decidable (∃ _ ∈ _, _))

instance : Decidable (Takeover lc s call) := inferInstanceAs (Decidable (_ ∧ ∃ _ ∈ _, _))

/-- The owner recorded for the UID or for the address of a call was another one. A UID without a row
has the owners that the cache shows. -/
def DifferentBefore (lc : SqlLower) (s : UidState) (call : OwnerCall) : Prop :=
  (∃ owner, s.owner call.uid = some owner ∧ owner ≠ call.owner lc) ∨
    (s.owner call.uid = none ∧ EarlierOwner lc s call) ∨ Takeover lc s call

/-! ## The invariant -/

/-- What holds of the table in every state. -/
structure Valid (lc : SqlLower) (s : UidState) : Prop where
  lower : ∀ uid row, s.owners.get uid = some row → lc.lower row.evmAddress = row.evmAddress
  generation : ∀ uid row, s.owners.get uid = some row → 1 ≤ row.generation
  unique : AddressesUnique s

theorem valid_initial (cache : List CachedRow) : Valid lc (.initial cache) where
  lower uid row h := by cases h
  generation uid row h := by cases h
  unique uid uid' row row' h := by cases h

theorem Valid.hasAddress_iff (h : Valid lc s) (hrow : s.owners.get uid = some row) :
    HasAddress lc call uid row ↔ row.evmAddress = call.evm lc ∧ uid ≠ call.uid := by
  have hsql : sqlLower row.evmAddress = row.evmAddress := by
    have hlower := lc.sqlLower_lower row.evmAddress
    rwa [h.lower uid row hrow] at hlower
  rw [HasAddress, hsql]

theorem movedFromUids_ne_nil (h : Valid lc s) :
    movedFromUids lc s call ≠ [] ↔ Takeover lc s call := by
  unfold movedFromUids Takeover
  split_ifs with hempty
  · simp [hempty]
  · have hmem : ∀ entry ∈ s.owners.entries, HasAddress lc call entry.1 entry.2 ↔
        entry.1 ≠ call.uid ∧ entry.2.evmAddress = call.evm lc := fun entry hentry => by
      rw [h.hasAddress_iff (OrderedDict.get_eq_some.mpr hentry), and_comm]
    rw [Ne, ← List.length_eq_zero_iff, (StableSort.sortBy_perm _ _).length_eq,
      List.length_eq_zero_iff, List.map_eq_nil_iff, List.filter_eq_nil_iff]
    simp only [decide_eq_true_eq, not_forall, not_not, exists_prop]
    constructor
    · rintro ⟨entry, hentry, hhas⟩
      exact ⟨hempty, entry, hentry, (hmem entry hentry).mp hhas⟩
    · rintro ⟨-, entry, hentry, hhas⟩
      exact ⟨entry, hentry, (hmem entry hentry).mpr hhas⟩

theorem takeover_iff : Takeover lc s call ↔ call.evm lc ≠ "" ∧
    ∃ uid row, s.owners.get uid = some row ∧ uid ≠ call.uid ∧ row.evmAddress = call.evm lc := by
  unfold Takeover
  refine and_congr_right fun _ => ⟨?_, ?_⟩
  · rintro ⟨entry, hentry, hrest⟩
    exact ⟨entry.1, entry.2, OrderedDict.get_eq_some.mpr hentry, hrest⟩
  · rintro ⟨uid, row, hrow, hrest⟩
    exact ⟨(uid, row), OrderedDict.get_eq_some.mp hrow, hrest⟩

/-- The row of another UID after the eviction. -/
def evictedRow (lc : SqlLower) (call : OwnerCall) (row : OwnerRow) : OwnerRow :=
  if call.evm lc ≠ "" ∧ row.evmAddress = call.evm lc then
    ⟨"", "", row.generation + 1, call.epochI⟩
  else row

theorem get_evict (h : Valid lc s) (uid : ℤ) :
    (evict lc s call).get uid =
      if uid = call.uid then s.owners.get uid
      else (s.owners.get uid).map (evictedRow lc call) := by
  unfold evict
  split_ifs with hmoved huid huid
  · rfl
  · -- without a takeover no row has the address
    cases hrow : s.owners.get uid with
    | none => rfl
    | some row =>
      rw [Option.map_some, evictedRow, if_neg]
      rintro ⟨hempty, haddress⟩
      have htakeover := takeover_iff.mpr ⟨hempty, uid, row, hrow, huid, haddress⟩
      exact (movedFromUids_ne_nil h).mpr htakeover hmoved
  · rw [OrderedDict.get_mapItems, huid]
    cases hrow : s.owners.get call.uid with
    | none => rfl
    | some row => simp [HasAddress]
  · rw [OrderedDict.get_mapItems]
    have hempty := ((movedFromUids_ne_nil h).mp hmoved).1
    cases hrow : s.owners.get uid with
    | none => rfl
    | some row =>
      simp only [Option.map_some, h.hasAddress_iff hrow, evictedRow, huid, hempty, ne_eq,
        not_false_eq_true, and_true, true_and]

/-! ## One call -/

theorem isSome_previousRow : (previousRow lc s call).isSome ↔ EarlierOwner lc s call := by
  rw [previousRow, List.find?_isSome]
  simp only [cachedRows, StableSort.mem_sortBy, List.mem_filter, decide_eq_true_eq, EarlierOwner,
    and_assoc]

theorem changed_iff (h : Valid lc s) :
    changed lc s call (s.owners.get call.uid) = true ↔ DifferentBefore lc s call := by
  have hmoved : (movedFromUids lc s call != []) = true ↔ Takeover lc s call := by
    rw [bne_iff_ne, movedFromUids_ne_nil h]
  rw [DifferentBefore, UidState.owner]
  cases hrow : s.owners.get call.uid with
  | none => simp [changed, isSome_previousRow, hmoved]
  | some row =>
    simp only [changed, Bool.or_eq_true, hmoved, bne_iff_ne, h.lower _ _ hrow, Option.map_some,
      Option.some.injEq, exists_eq_left', reduceCtorEq, false_and, false_or]
    refine or_congr_left ?_
    rw [← not_and_or, not_iff_not, OwnerRow.owner, OwnerCall.owner, Prod.mk.injEq]

theorem not_takeover (h : Valid lc s) (hrow : s.owners.get call.uid = some row)
    (howner : row.owner = call.owner lc) : ¬ Takeover lc s call := by
  rintro hback
  obtain ⟨hempty, uid, row', hrow', hne, haddress⟩ := takeover_iff.mp hback
  have heq : row.evmAddress = call.evm lc := congrArg Prod.snd howner
  exact hne (h.unique _ _ row row' hrow hrow' (heq ▸ hempty) (heq.trans haddress.symm)).symm

theorem changed_some_iff (h : Valid lc s) (hrow : s.owners.get call.uid = some row) :
    changed lc s call (some row) = true ↔ row.owner ≠ call.owner lc := by
  have hchanged : _ ↔ DifferentBefore lc s call := changed_iff h
  rw [hrow] at hchanged
  rw [hchanged, DifferentBefore, UidState.owner, hrow]
  simp only [Option.map_some, Option.some.injEq, exists_eq_left', reduceCtorEq, false_and, false_or,
    or_iff_left_iff_imp]
  exact fun htakeover howner => not_takeover h hrow howner htakeover

theorem newRow_some (h : Valid lc s) (hrow : s.owners.get call.uid = some row) :
    newRow lc call (changed lc s call (some row)) (some row) =
      if row.owner = call.owner lc then row
      else ⟨call.hotkeySs58, call.evm lc, row.generation + 1, call.epochI⟩ := by
  have hchanged : changed lc s call (some row) = true ↔ _ := changed_some_iff h hrow
  have hgeneration : row.generation ≠ 0 := by
    have hpos := h.generation _ _ hrow
    omega
  split_ifs with howner
  · have hfalse : changed lc s call (some row) = false := by
      rw [← Bool.not_eq_true, hchanged, not_not]
      exact howner
    obtain ⟨hhotkey, haddress⟩ := Prod.mk.inj howner
    simp only [newRow, hfalse, if_neg hgeneration, ← hhotkey, ← haddress]
    simp
  · simp only [newRow, hchanged.mpr howner, if_neg hgeneration, if_true]

theorem newRow_none (h : Valid lc s) (hrow : s.owners.get call.uid = none) :
    newRow lc call (changed lc s call none) none =
      ⟨call.hotkeySs58, call.evm lc, 1,
        if EarlierOwner lc s call ∨ Takeover lc s call then call.epochI else 0⟩ := by
  have hchanged : _ ↔ DifferentBefore lc s call := changed_iff h
  rw [hrow, DifferentBefore, UidState.owner, hrow] at hchanged
  simp only [Option.map_none, reduceCtorEq, false_and, exists_false, true_and, false_or] at hchanged
  simp only [newRow, hchanged]

/-- The row under the UID of a call after it. -/
def rowAfter (lc : SqlLower) (s : UidState) (call : OwnerCall) : OwnerRow :=
  match s.owners.get call.uid with
  | none => ⟨call.hotkeySs58, call.evm lc, 1,
      if EarlierOwner lc s call ∨ Takeover lc s call then call.epochI else 0⟩
  | some row =>
    if row.owner = call.owner lc then row
    else ⟨call.hotkeySs58, call.evm lc, row.generation + 1, call.epochI⟩

theorem owner_rowAfter : (rowAfter lc s call).owner = call.owner lc := by
  unfold rowAfter
  split
  · rfl
  · split_ifs with howner
    · exact howner
    · rfl

variable {result : Reconciled}

/-- What a call that does not raise does: the rows after it, and what it reports. -/
theorem reconcile_spec (h : Valid lc s) (hcall : reconcileUidOwner lc s call = some (s', result)) :
    s'.cache = s.cache ∧
      (∀ uid, s'.owners.get uid =
        if uid = call.uid then some (rowAfter lc s call)
        else (s.owners.get uid).map (evictedRow lc call)) ∧
      (result.changed = true ↔ DifferentBefore lc s call) := by
  have hrow : (evict lc s call).get call.uid = s.owners.get call.uid := by
    rw [get_evict h, if_pos rfl]
  simp only [reconcileUidOwner, hrow] at hcall
  rw [Option.ite_none_left_eq_some] at hcall
  obtain ⟨rfl, rfl⟩ := Prod.mk.inj (Option.some.inj hcall.2)
  refine ⟨rfl, fun uid => ?_, changed_iff h⟩
  rw [OrderedDict.get_set]
  split_ifs with huid
  · rw [rowAfter]
    cases hprevious : s.owners.get call.uid with
    | none => rw [newRow_none h hprevious]
    | some row => rw [newRow_some h hprevious]
  · rw [get_evict h, if_neg huid]

theorem Valid.reconcile (h : Valid lc s) (hcall : reconcileUidOwner lc s call = some (s', result)) :
    Valid lc s' := by
  obtain ⟨-, hrows, -⟩ := reconcile_spec h hcall
  -- a row after the call is the written one, an evicted one or an old one
  have hcases : ∀ uid row, s'.owners.get uid = some row →
      (uid = call.uid ∧ row = rowAfter lc s call) ∨
        (uid ≠ call.uid ∧ row.evmAddress = "" ∧ 1 ≤ row.generation) ∨
        (uid ≠ call.uid ∧ s.owners.get uid = some row ∧
          (row.evmAddress ≠ "" → row.evmAddress ≠ call.evm lc)) := by
    intro uid row hrow
    rw [hrows] at hrow
    split_ifs at hrow with huid
    · exact .inl ⟨huid, (Option.some.inj hrow).symm⟩
    · obtain ⟨old, hold, rfl⟩ := Option.map_eq_some_iff.mp hrow
      unfold evictedRow
      split_ifs with hevicted
      · have hpos := h.generation _ _ hold
        exact .inr (.inl ⟨huid, rfl, by simp only; omega⟩)
      · exact .inr (.inr ⟨huid, hold, fun hempty heq => hevicted ⟨heq ▸ hempty, heq⟩⟩)
  have howner : (rowAfter lc s call).evmAddress = call.evm lc := congrArg Prod.snd owner_rowAfter
  refine ⟨fun uid row hrow => ?_, fun uid row hrow => ?_, fun uid uid' row row' hrow hrow' => ?_⟩
  · rcases hcases uid row hrow with ⟨-, rfl⟩ | ⟨-, hempty, -⟩ | ⟨-, hold, -⟩
    · rw [howner, OwnerCall.evm, lc.lower_lower]
    · rw [hempty, lc.lower_empty]
    · exact h.lower _ _ hold
  · rcases hcases uid row hrow with ⟨-, rfl⟩ | ⟨-, -, hpos⟩ | ⟨-, hold, -⟩
    · unfold rowAfter
      cases hprevious : s.owners.get call.uid with
      | none => exact le_refl 1
      | some previous =>
        have hpos := h.generation _ _ hprevious
        simp only
        split_ifs
        · exact hpos
        · simp only
          omega
    · exact hpos
    · exact h.generation _ _ hold
  · intro hempty heq
    rcases hcases uid row hrow with ⟨huid, rfl⟩ | ⟨-, hrowEmpty, -⟩ | ⟨huid, hold, hne⟩
    · rcases hcases uid' row' hrow' with ⟨huid', -⟩ | ⟨-, hrowEmpty, -⟩ | ⟨-, -, hne'⟩
      · rw [huid, huid']
      · exact absurd (heq.trans hrowEmpty) hempty
      · exact absurd (heq.symm.trans howner) (hne' (heq ▸ hempty))
    · exact absurd hrowEmpty hempty
    · rcases hcases uid' row' hrow' with ⟨-, rfl⟩ | ⟨-, hrowEmpty, -⟩ | ⟨-, hold', -⟩
      · exact absurd (heq.trans howner) (hne hempty)
      · exact absurd (heq.trans hrowEmpty) hempty
      · exact h.unique _ _ _ _ hold hold' hempty heq

theorem after_eq (lc : SqlLower) (s : UidState) (call : OwnerCall) :
    (reconcileUidOwner lc s call = none ∧ s.after lc call = s) ∨
      ∃ s' result, reconcileUidOwner lc s call = some (s', result) ∧ s.after lc call = s' := by
  unfold UidState.after
  cases reconcileUidOwner lc s call with
  | none => exact .inl ⟨rfl, rfl⟩
  | some result => exact .inr ⟨result.1, result.2, rfl, rfl⟩

theorem Valid.after (h : Valid lc s) : Valid lc (s.after lc call) := by
  rcases after_eq lc s call with ⟨-, heq⟩ | ⟨s', result, hcall, heq⟩
  · rw [heq]
    exact h
  · rw [heq]
    exact h.reconcile hcall

/-! ## Runs -/

/-- A state, and for every UID the start epoch that an observer of the recorded owners gives it. -/
structure OwnerTrace where
  state : UidState
  start : ℤ → ℤ

/-- A call is observed: a new row starts at `firstStart`, and a change of a recorded owner starts at
the epoch of the call. -/
def OwnerTrace.observe (lc : SqlLower) (firstStart : UidState → OwnerCall → ℤ) (t : OwnerTrace)
    (call : OwnerCall) : OwnerTrace where
  state := t.state.after lc call
  start uid :=
    match t.state.owner uid, (t.state.after lc call).owner uid with
    | none, some _ => firstStart t.state call
    | some owner, some owner' => if owner = owner' then t.start uid else call.epochI
    | _, none => t.start uid

/-- The observed calls from a cache on. -/
def OwnerTrace.run (lc : SqlLower) (firstStart : UidState → OwnerCall → ℤ) (cache : List CachedRow)
    (calls : List OwnerCall) : OwnerTrace :=
  calls.foldl (OwnerTrace.observe lc firstStart) ⟨.initial cache, fun _ => 0⟩

/-- The start epoch of a first row: the epoch of the call when the cache shows another owner or the
address is taken from another UID, and zero otherwise. -/
def firstStart (lc : SqlLower) (s : UidState) (call : OwnerCall) : ℤ :=
  if EarlierOwner lc s call ∨ Takeover lc s call then call.epochI else 0

/-- Every row has the observed start epoch. -/
def StartsObserved (t : OwnerTrace) : Prop :=
  ∀ uid row, t.state.owners.get uid = some row → row.identityStartEpoch = t.start uid

/-- What a call does to the rows of a state, and what it reports. -/
structure CallFaithful (lc : SqlLower) (s : UidState) (call : OwnerCall) (s' : UidState)
    (result : Reconciled) : Prop where
  /-- The generation of a UID goes up by one when its recorded owner changes, and else stays. -/
  generation : ∀ uid row, s.owners.get uid = some row →
    ∃ row', s'.owners.get uid = some row' ∧
      row'.generation = row.generation + if row'.owner = row.owner then 0 else 1
  /-- A call that repeats the recorded owner of its UID changes no row. -/
  repeated : s.owner call.uid = some (call.owner lc) → ∀ uid, s'.owners.get uid = s.owners.get uid
  changed : result.changed = true ↔ DifferentBefore lc s call

/-- A row stays as it is, or its owner changes and it starts anew. -/
def StaysOrRestarts (call : OwnerCall) (row row' : OwnerRow) : Prop :=
  row' = row ∨ row'.owner ≠ row.owner ∧ row'.generation = row.generation + 1 ∧
    row'.identityStartEpoch = call.epochI

theorem staysOrRestarts_evictedRow (row : OwnerRow) :
    StaysOrRestarts call row (evictedRow lc call row) := by
  unfold evictedRow
  split_ifs with hevicted
  · have haddress : row.evmAddress ≠ "" := hevicted.2 ▸ hevicted.1
    exact .inr ⟨fun howner => haddress (congrArg Prod.snd howner).symm, rfl, rfl⟩
  · exact .inl rfl

theorem staysOrRestarts_rowAfter (hrow : s.owners.get call.uid = some row) :
    StaysOrRestarts call row (rowAfter lc s call) := by
  rw [rowAfter, hrow]
  simp only
  split_ifs with howner
  · exact .inl rfl
  · exact .inr ⟨fun hsame => howner hsame.symm, rfl, rfl⟩

/-- Rows never disappear, and change with their owner only. -/
theorem reconcile_row (h : Valid lc s) (hcall : reconcileUidOwner lc s call = some (s', result))
    (hrow : s.owners.get uid = some row) :
    ∃ row', s'.owners.get uid = some row' ∧ StaysOrRestarts call row row' := by
  obtain ⟨-, hrows, -⟩ := reconcile_spec h hcall
  rw [hrows]
  split_ifs with huid
  · exact ⟨_, rfl, staysOrRestarts_rowAfter (huid ▸ hrow)⟩
  · rw [hrow]
    exact ⟨_, rfl, staysOrRestarts_evictedRow row⟩

theorem reconcile_new (h : Valid lc s) (hcall : reconcileUidOwner lc s call = some (s', result))
    (hrow : s.owners.get uid = none) (hrow' : s'.owners.get uid = some row) :
    row.identityStartEpoch = firstStart lc s call := by
  obtain ⟨-, hrows, -⟩ := reconcile_spec h hcall
  rw [hrows, hrow] at hrow'
  split_ifs at hrow' with huid
  · obtain rfl := Option.some.inj hrow'
    rw [rowAfter, ← huid, hrow, firstStart]
  · cases hrow'

theorem callFaithful (h : Valid lc s) (hcall : reconcileUidOwner lc s call = some (s', result)) :
    CallFaithful lc s call s' result := by
  obtain ⟨-, hrows, hchanged⟩ := reconcile_spec h hcall
  refine ⟨fun uid row hrow => ?_, fun hrepeated uid => ?_, hchanged⟩
  · obtain ⟨row', hrow', rfl | ⟨howner, hgeneration, -⟩⟩ := reconcile_row h hcall hrow
    · exact ⟨row', hrow', by simp⟩
    · exact ⟨row', hrow', by rw [hgeneration, if_neg howner]⟩
  · obtain ⟨row, hrow, howner⟩ := Option.map_eq_some_iff.mp hrepeated
    rw [hrows]
    split_ifs with huid
    · rw [huid, hrow, rowAfter, hrow]
      simp only [if_pos howner]
    · -- nobody else has the address, so nobody is evicted
      cases hother : s.owners.get uid with
      | none => rfl
      | some other =>
        rw [Option.map_some, evictedRow, if_neg]
        rintro ⟨hempty, haddress⟩
        exact not_takeover h hrow howner
          (takeover_iff.mpr ⟨hempty, uid, other, hother, huid, haddress⟩)

theorem StartsObserved.observe {t : OwnerTrace} (h : Valid lc t.state) (hstart : StartsObserved t)
    (call : OwnerCall) : StartsObserved (t.observe lc (firstStart lc) call) := by
  intro uid row' hrow'
  simp only [OwnerTrace.observe, UidState.owner] at hrow' ⊢
  rw [hrow', Option.map_some]
  rcases after_eq lc t.state call with ⟨-, heq⟩ | ⟨s', result, hcall, heq⟩
  · rw [heq] at hrow'
    rw [hrow']
    simpa using hstart uid row' hrow'
  · rw [heq] at hrow'
    cases hrow : t.state.owners.get uid with
    | none => exact reconcile_new h hcall hrow hrow'
    | some row =>
      obtain ⟨row'', hrow'', hcases⟩ := reconcile_row h hcall hrow
      obtain rfl := Option.some.inj (hrow'.symm.trans hrow'')
      rcases hcases with rfl | ⟨howner, -, hepoch⟩
      · simpa using hstart uid row' hrow
      · simp only [Option.map_some, if_neg (Ne.symm howner), hepoch]

theorem run_valid (lc : SqlLower) (cache : List CachedRow) (calls : List OwnerCall) :
    Valid lc (OwnerTrace.run lc (firstStart lc) cache calls).state ∧
      StartsObserved (OwnerTrace.run lc (firstStart lc) cache calls) := by
  induction calls using List.reverseRecOn with
  | nil => exact ⟨valid_initial cache, fun uid row h => by cases h⟩
  | append_singleton calls call ih =>
    rw [OwnerTrace.run, List.foldl_append]
    exact ⟨ih.1.after, ih.2.observe ih.1 call⟩

/-- In every run of calls from any cache, no address belongs to two UIDs, every start epoch is the
epoch of the call that last changed the recorded owner, and every call changes generations exactly
with recorded owners and reports exactly the changes. -/
theorem uidOwnership_holds (lc : SqlLower) (cache : List CachedRow) (calls : List OwnerCall) :
    let t := OwnerTrace.run lc (firstStart lc) cache calls
    AddressesUnique t.state ∧ StartsObserved t ∧
      ∀ call s' result, reconcileUidOwner lc t.state call = some (s', result) →
        CallFaithful lc t.state call s' result := by
  obtain ⟨hvalid, hstart⟩ := run_valid lc cache calls
  exact ⟨hvalid.unique, hstart, fun call s' result hcall => callFaithful hvalid hcall⟩

/-! ## A takeover by a new UID -/

/-- The ASCII mapping. -/
def asciiLower : SqlLower where
  toLowerCase := .ascii
  lower_empty := by decide
  sqlLower_lower s := LowerCase.ascii.lower_lower s

/-- The start epoch of a first row by the cache alone. -/
def cachedStart (lc : SqlLower) (s : UidState) (call : OwnerCall) : ℤ :=
  if EarlierOwner lc s call then call.epochI else 0

/-- With an empty cache, the first row of a UID that takes over an address starts at the epoch of
the call. -/
theorem takeover_starts_epoch :
    ¬ StartsObserved (OwnerTrace.run asciiLower (cachedStart asciiLower) []
      [⟨1, "5A", "0xAb", 5⟩, ⟨2, "5A", "0xaB", 7⟩]) := by
  intro h
  have hrow := h 2 ⟨"5A", "0xab", 1, 7⟩ (by decide +kernel)
  revert hrow
  decide +kernel

end Verathos.UidOwnership
