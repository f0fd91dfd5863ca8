import Verathos.ProofV3.AccumulatorCalls

/-!
# Refused calls on the accumulator

A call that raises should leave the accumulator as it was. `Disturbs` says when it does not: the
call fixes the capture mode, or the sidecar binding, before it is refused, or it is refused after it
has written a coverage counter or the record of a table.

* `Consistent`: the two facts about every reachable object that the exact condition needs.
* `accumulator_unchanged_iff`: a refused call leaves the object unchanged exactly when it does not
  disturb it. In a run without disturbing calls, the refused calls can be left out.
-/

namespace Verathos.ProofV3

open Method
open PrefixCache (Constructed construct construct_eq_ok packI nonzero32 u32 positiveU32)

variable {sha256 : Bytes → Digest} {s s' : Accumulator} {e : PyError} {u : Unit}

namespace Accumulator

/-! ## Consistent objects -/

/-- Every bound table has a chain, and bound chunks have a generation. -/
structure Consistent (s : Accumulator) : Prop where
  tables : ∀ tableId binding, s.cacheTableBindings.get tableId = some binding →
    (s.cacheTableChains (binding.1, tableId)).isSome
  generation : s.chunkSidecarBindingMode = some true → s.chunkSidecarGenerationDigest ≠ none

theorem consistent_new : Consistent {} := ⟨by simp, by simp⟩

theorem Consistent.withTableEvent {address : PageAddressFields} {chain root : Digest}
    (h : s.Consistent) : (s.withTableEvent sha256 address chain root).Consistent := by
  refine ⟨fun tableId binding hbinding => ?_, h.generation⟩
  change (Function.update s.cacheTableChains address.tableKey _ (binding.1, tableId)).isSome
  rw [Function.update_apply]
  split_ifs
  · rfl
  · exact h.tables tableId binding hbinding

theorem Consistent.bound {chunk : ChunkFields} (h : s.Consistent) :
    (s.bound chunk).Consistent := by
  refine ⟨h.tables, fun hmode => ?_⟩
  have hbinding : chunk.hasSidecarSchedulerBinding = true := Option.some.inj hmode
  change (if _ then _ else _) ≠ none
  rw [if_pos hbinding]
  exact Option.isSome_iff_ne_none.mp hbinding

theorem consistent_started {profile : ExecutionSecurityProfile}
    {precommitContext : PreExecutionRequestContext} {cacheEpoch : ℕ} {context anchor : Digest}
    (h : s.Consistent) :
    (s.started sha256 profile precommitContext cacheEpoch context anchor).Consistent := by
  refine ⟨fun tableId binding hbinding => ?_, h.generation⟩
  change (initialChains sha256 context _ (binding.1, tableId)).isSome
  simp only [initialChains]
  rw [show profile.val.relationSpec.val.cache.val.tableBindings.get tableId = some binding
    from hbinding]
  simp

theorem Consistent.tableChain (h : s.Consistent) {address : PageAddressFields} {root : Bytes}
    {rootDigest : Digest} (hpage : s.pageRoot address root = .ok rootDigest) :
    Accepts (s.tableChain address.tableKey) := by
  simp only [pageRoot, bind_eq_ok, raiseIf_eq_ok, exists_const, instanceOf_eq_ok, not_not] at hpage
  obtain ⟨_, -, _, binding, hbinding, htable, -⟩ := hpage
  obtain ⟨chain, hchain⟩ := Option.isSome_iff_exists.mp (h.tables _ _ hbinding)
  rw [htable] at hchain
  exact ⟨chain, by simp only [Accumulator.tableChain, PageAddressFields.tableKey, hchain]⟩

variable {call : AccumulatorCall}

theorem Consistent.returns (h : s.Consistent) (hcall : Returns (call.method sha256) s u s') :
    s'.Consistent := by
  cases call with
  | begin profile precommitContext cacheEpoch =>
    obtain ⟨-, _, _, _, _, -, -, -, -, rfl⟩ := returns_begin hcall
    exact consistent_started h
  | accumulateStage stageId tokenIndex stageRoot =>
    obtain ⟨-, _, _, rfl⟩ := returns_accumulateStage hcall
    exact ⟨h.tables, h.generation⟩
  | accumulateChunk chunk =>
    obtain ⟨-, c, _, -, -, -, rfl⟩ := returns_accumulateChunk hcall
    have hbound : ((s.inMode .chunks).bound c.val).Consistent :=
      Consistent.bound ⟨h.tables, h.generation⟩
    exact ⟨hbound.tables, hbound.generation⟩
  | accumulateKvPages address pageRoot =>
    obtain ⟨-, a, -, _, _, _, _, rfl⟩ := returns_accumulateKvPages hcall
    have hpage : ((s.inMode .records).withPage a.val).Consistent := ⟨h.tables, h.generation⟩
    exact ⟨hpage.withTableEvent.tables, hpage.generation⟩
  | sealPrefill contextTokenCount =>
    obtain ⟨_, hseal⟩ := returns_discard.mp hcall
    obtain ⟨-, _, -, rfl⟩ := returns_sealPrefill hseal
    exact ⟨h.tables, h.generation⟩
  | sealDecode decodeTokenCount outputBinding =>
    obtain ⟨_, hseal⟩ := returns_discard.mp hcall
    obtain ⟨-, _, -, -, rfl⟩ := returns_sealDecode hseal
    exact ⟨h.tables, h.generation⟩
  | freezePrecommit =>
    obtain ⟨-, rfl⟩ := returns_freezePrecommit hcall
    exact ⟨h.tables, h.generation⟩
  | openPostnonce ticket =>
    obtain ⟨_, hopen⟩ := returns_discard.mp hcall
    exact absurd hopen returns_openPostnonce
  | release =>
    obtain rfl := returns_modify.mp hcall
    split_ifs
    · exact h
    · exact ⟨by simp, by simp⟩


theorem Consistent.raises (h : s.Consistent) (hcall : Raises (call.method sha256) s e s') :
    s'.Consistent := by
  cases call with
  | begin profile precommitContext cacheEpoch =>
    obtain rfl := raises_begin hcall
    exact h
  | accumulateStage stageId tokenIndex stageRoot =>
    rcases raises_accumulateStage hcall with ⟨-, rfl⟩ | ⟨-, ⟨-, rfl⟩ | ⟨-, rfl⟩⟩
    · exact h
    · exact ⟨h.tables, h.generation⟩
    · exact ⟨h.tables, h.generation⟩
  | accumulateChunk chunk =>
    have hbound : ∀ c, ((s.inMode .chunks).bound c).Consistent := fun c =>
      Consistent.bound ⟨h.tables, h.generation⟩
    rcases raises_accumulateChunk hcall with ⟨-, rfl⟩ | ⟨-, ⟨-, rfl⟩ | ⟨c, -, hc⟩⟩
    · exact h
    · exact ⟨h.tables, h.generation⟩
    · rcases hc with ⟨-, -, rfl⟩ | ⟨-, hsome, -, rfl⟩ | ⟨-, ⟨-, rfl⟩ | ⟨-, rfl⟩⟩
      · exact ⟨h.tables, h.generation⟩
      · exact ⟨h.tables, fun _ => hsome⟩
      · exact hbound c.val
      · exact ⟨(hbound c.val).tables, (hbound c.val).generation⟩
  | accumulateKvPages address pageRoot =>
    have hpage : ∀ a, ((s.inMode .records).withPage a).Consistent := fun a =>
      ⟨h.tables, h.generation⟩
    rcases raises_accumulateKvPages (fun _ _ => h.tableChain) hcall with ⟨-, rfl⟩ | ⟨-, ⟨-, rfl⟩ | ⟨a, -, ha⟩⟩
    · exact h
    · exact ⟨h.tables, h.generation⟩
    · rcases ha with ⟨-, rfl⟩ | ⟨_, _, -, -, ⟨-, rfl⟩ | ⟨-, rfl⟩⟩
      · exact ⟨h.tables, h.generation⟩
      · exact (hpage a.val).withTableEvent
      · exact ⟨(hpage a.val).withTableEvent.tables, h.generation⟩
  | sealPrefill contextTokenCount =>
    obtain rfl := raises_sealPrefill (raises_discard.mp hcall)
    exact h
  | sealDecode decodeTokenCount outputBinding =>
    obtain rfl := raises_sealDecode (raises_discard.mp hcall)
    exact h
  | freezePrecommit =>
    obtain rfl := raises_freezePrecommit hcall
    exact h
  | openPostnonce ticket =>
    obtain rfl := raises_openPostnonce (raises_discard.mp hcall)
    exact h
  | release => exact absurd hcall raises_release

theorem Consistent.after (h : s.Consistent) : (after (call.method sha256) s).Consistent := by
  rcases returns_or_raises (call.method sha256) s with ⟨_, s', hcall⟩ | ⟨_, s', hcall⟩
  · rw [after_of_returns hcall]
    exact h.returns hcall
  · rw [after_of_raises hcall]
    exact h.raises hcall

theorem consistent_afterCalls (sha256 : Bytes → Digest) (calls : List AccumulatorCall) :
    (afterCalls sha256 calls).Consistent := by
  induction calls using List.reverseRecOn with
  | nil => exact consistent_new
  | append_singleton calls call ih =>
    rw [afterCalls, afterCallsFrom, List.foldl_append]
    exact ih.after

/-! ## What a refused page changes -/

/-- A page changes what the object has about its table: it has a new version, or it is the first or
the longest write, or the chain of the table moves. -/
def PageChanges (s : Accumulator) (sha256 : Bytes → Digest) (address : PageAddressFields)
    (chain root : Digest) : Prop :=
  s.cacheLatestVersions address.tableKey ≠ some address.cacheVersion ∨
    (address.accessKind = .write ∧ (address.tableKey ∉ s.cacheWrittenTables ∨
      (s.cacheFinalLengths address.tableKey).getD 0 < address.sequenceLength)) ∨
    tableEvent sha256 chain address root ≠ chain

/-- What the object has about the tables. -/
def tableRecords (s : Accumulator) :
    (TableKey → Option ℕ) × Finset TableKey × (TableKey → Option ℕ) × (TableKey → Option Digest) :=
  (s.cacheLatestVersions, s.cacheWrittenTables, s.cacheFinalLengths, s.cacheTableChains)

section Page

variable {address : PageAddressFields} {pageBytes : Bytes} {chain root : Digest}

theorem update_eq_self_iff {α β : Type} [DecidableEq α] {f : α → β} {a : α} {b : β} :
    Function.update f a b = f ↔ f a = b := by
  rw [Function.update_eq_iff]
  simp [eq_comm]

theorem max_version (h : s.pageRoot address pageBytes = .ok root) :
    max address.cacheVersion ((s.cacheLatestVersions address.tableKey).getD 0) =
      address.cacheVersion := by
  simp only [pageRoot, bind_eq_ok, raiseIf_eq_ok, exists_const] at h
  obtain ⟨_, -, -, _, -, -, -, -, -, _, -, hversion, -, -⟩ := h
  cases hprior : s.cacheLatestVersions address.tableKey with
  | none => simp
  | some prior => simpa [hprior] using hversion

theorem tableRecords_page_iff (hlength : 0 < address.sequenceLength)
    (hroot : s.pageRoot address pageBytes = .ok root)
    (hchain : s.tableChain address.tableKey = .ok chain) :
    ((s.withPage address).withTableEvent sha256 address chain root).tableRecords =
        s.tableRecords ↔
      ¬ s.PageChanges sha256 address chain root := by
  have hchain' : s.cacheTableChains address.tableKey = some chain := by
    unfold tableChain at hchain
    split at hchain
    · rename_i chain' hchain'
      rw [hchain', Except.ok.inj hchain]
    · cases hchain
  simp only [tableRecords, Prod.mk.injEq, PageChanges, withPage, withTableEvent, max_version hroot, update_eq_self_iff,
    hchain', Option.some.injEq, not_or, not_not, @eq_comm _ chain]
  refine and_congr_right fun _ => ?_
  rw [← and_assoc]
  refine and_congr_left fun _ => ?_
  by_cases hwrite : address.accessKind = .write
  · simp only [hwrite, if_true, Finset.insert_eq_self, update_eq_self_iff, true_and, not_or,
      not_not, not_lt]
    refine and_congr_right fun _ => ?_
    -- a length that is there is positive only when a write has stored it
    cases hprior : s.cacheFinalLengths address.tableKey with
    | none => simp [hlength.ne']
    | some prior => simp
  · simp [hwrite]

theorem page_eq_self_iff (hlength : 0 < address.sequenceLength)
    (hroot : s.pageRoot address pageBytes = .ok root)
    (hchain : s.tableChain address.tableKey = .ok chain) :
    (s.withPage address).withTableEvent sha256 address chain root = s ↔
      ¬ s.PageChanges sha256 address chain root := by
  rw [← tableRecords_page_iff hlength hroot hchain]
  constructor
  · intro h
    exact congrArg tableRecords h
  · intro h
    simp only [tableRecords, Prod.mk.injEq] at h
    obtain ⟨hversions, hwritten, hlengths, hchains⟩ := h
    -- every other field is the one of the object
    change { s with
      cacheLatestVersions := ((s.withPage address).withTableEvent sha256 address chain
        root).cacheLatestVersions
      cacheWrittenTables := ((s.withPage address).withTableEvent sha256 address chain
        root).cacheWrittenTables
      cacheFinalLengths := ((s.withPage address).withTableEvent sha256 address chain
        root).cacheFinalLengths
      cacheTableChains := ((s.withPage address).withTableEvent sha256 address chain
        root).cacheTableChains } = s
    rw [hversions, hwritten, hlengths, hchains]

theorem page_setMax_eq_self_iff {logicalEnd : ℕ} (hlength : 0 < address.sequenceLength)
    (hroot : s.pageRoot address pageBytes = .ok root)
    (hchain : s.tableChain address.tableKey = .ok chain) :
    ((s.withPage address).withTableEvent sha256 address chain root).setMaxLogicalTokenExclusive
        logicalEnd = s ↔
      ¬ s.PageChanges sha256 address chain root ∧ logicalEnd = s.maxLogicalTokenExclusive := by
  constructor
  · intro h
    have hpage : ¬ s.PageChanges sha256 address chain root := by
      rw [← tableRecords_page_iff hlength hroot hchain]
      exact (congrArg tableRecords h :)
    rw [(page_eq_self_iff hlength hroot hchain).mpr hpage, setMax_eq_self] at h
    exact ⟨hpage, h⟩
  · rintro ⟨hpage, hend⟩
    rw [(page_eq_self_iff hlength hroot hchain).mpr hpage, setMax_eq_self]
    exact hend

end Page

end Accumulator

/-! ## Calls that disturb -/

/-- When this call is refused, the object changes.

* A record, a page or a chunk fixes the capture mode of the object before any other check.
* The first chunk fixes the sidecar binding before its coordinates are checked.
* A stage that passes its checks, a page in the range of the profile and a chunk with the right
  coordinates move the last logical token before the state roots and the number of records are
  checked.
* A page that passes its checks changes the records of its table before its range is checked. -/
def AccumulatorCall.Disturbs (sha256 : Bytes → Digest) (s : Accumulator) : AccumulatorCall → Prop
  | .accumulateStage stageId tokenIndex stageRoot =>
    s.Admits .records ∧ (s.captureMode = none ∨
      Accepts (s.stageRecord stageId tokenIndex stageRoot) ∧
        s.maxLogicalTokenExclusive < tokenIndex + 1)
  | .accumulateChunk chunk =>
    s.Admits .chunks ∧ (s.captureMode = none ∨ ∃ c, chunk = some c ∧
      (s.chunkSidecarBindingMode = none ∨
        s.SidecarMatches c.val ∧ Accepts (s.checkChunk c.val) ∧
          s.maxLogicalTokenExclusive ≠ c.val.logicalEnd))
  | .accumulateKvPages address pageRoot =>
    s.Admits .records ∧ (s.captureMode = none ∨ ∃ a root chain, address = some a ∧
      s.pageRoot a.val pageRoot = .ok root ∧ s.tableChain a.val.tableKey = .ok chain ∧
        (s.PageChanges sha256 a.val chain root ∨
          Accepts (s.checkRange a.val.sequenceLength "K/V range") ∧
            s.maxLogicalTokenExclusive < a.val.sequenceLength))
  | _ => False

namespace Accumulator

theorem ne_of_captureMode {mode : CaptureMode} (hmode : s.captureMode = none)
    (h : s'.captureMode = some mode) : s' ≠ s := by
  rintro rfl
  rw [h] at hmode
  cases hmode

theorem max_eq_iff {a b : ℕ} : max a b = a ↔ ¬ a < b := by omega

theorem stage_unchanged_iff {stageId : Bytes} {tokenIndex : ℕ} {stageRoot : Bytes}
    (h : Raises (accumulateStage sha256 stageId tokenIndex stageRoot) s e s') :
    s' = s ↔ ¬ (AccumulatorCall.accumulateStage stageId tokenIndex stageRoot).Disturbs sha256 s := by
  simp only [AccumulatorCall.Disturbs]
  rcases raises_accumulateStage h with ⟨hadmits, rfl⟩ | ⟨hadmits, h⟩
  · simp [hadmits]
  rcases hadmits.2 with hnone | hmode
  · -- the call has fixed the mode
    have hne : s' ≠ s := by
      rcases h with ⟨-, rfl⟩ | ⟨-, rfl⟩ <;> exact ne_of_captureMode hnone rfl
    simp [hne, hadmits, hnone]
  · rw [inMode_eq_self.mpr hmode] at h
    rcases h with ⟨hrecord, rfl⟩ | ⟨hrecord, rfl⟩
    · simp [hrecord, hmode]
    · rw [setMax_eq_self, max_eq_iff]
      simp [hadmits, hrecord, hmode]

theorem sequenceLength_pos (address : LogicalKVPageAddress) : 0 < address.val.sequenceLength := by
  have h := address.property
  simp only [PageAddressFields.postInit, positiveU32, bind_eq_ok, raiseIf_eq_ok,
    exists_const] at h
  omega

theorem page_unchanged_iff {address : Option LogicalKVPageAddress} {pageRoot : Bytes}
    (hs : s.Consistent) (hraises : Raises (accumulateKvPages sha256 address pageRoot) s e s') :
    s' = s ↔ ¬ (AccumulatorCall.accumulateKvPages address pageRoot).Disturbs sha256 s := by
  simp only [AccumulatorCall.Disturbs]
  rcases raises_accumulateKvPages (fun _ _ => hs.tableChain) hraises with ⟨hadmits, rfl⟩ | ⟨hadmits, h⟩
  · simp [hadmits]
  rcases hadmits.2 with hnone | hmode
  · have hne : s' ≠ s := by
      rcases h with ⟨-, rfl⟩ | ⟨a, -, ⟨-, rfl⟩ | ⟨_, _, -, -, ⟨-, rfl⟩ | ⟨-, rfl⟩⟩⟩ <;>
        exact ne_of_captureMode hnone rfl
    simp [hne, hadmits, hnone]
  · rw [inMode_eq_self.mpr hmode] at h
    rcases h with ⟨rfl, rfl⟩ | ⟨a, rfl, ⟨hroot, rfl⟩ | ⟨root, chain, hroot, hchain, h⟩⟩
    · simp [hmode]
    · refine iff_of_true rfl ?_
      rintro ⟨-, hnone | ⟨a', root, chain, ha, hroot', -⟩⟩
      · rw [hmode] at hnone
        cases hnone
      · cases ha
        exact hroot ⟨root, hroot'⟩
    · have hlength := sequenceLength_pos a
      have hdisturbs : (s.captureMode = none ∨ ∃ a' root chain, some a = some a' ∧
          s.pageRoot a'.val pageRoot = .ok root ∧ s.tableChain a'.val.tableKey = .ok chain ∧
            (s.PageChanges sha256 a'.val chain root ∨
              Accepts (s.checkRange a'.val.sequenceLength "K/V range") ∧
                s.maxLogicalTokenExclusive < a'.val.sequenceLength)) ↔
          s.PageChanges sha256 a.val chain root ∨
            Accepts (s.checkRange a.val.sequenceLength "K/V range") ∧
              s.maxLogicalTokenExclusive < a.val.sequenceLength := by
        simp [hmode, hroot, hchain]
      rw [hdisturbs, and_iff_right hadmits, not_or, not_and, not_lt]
      rcases h with ⟨hrange, rfl⟩ | ⟨hrange, rfl⟩
      · rw [page_eq_self_iff hlength hroot hchain]
        exact (and_iff_left fun hrange' => absurd hrange' hrange).symm
      · rw [page_setMax_eq_self_iff hlength hroot hchain, max_eq_left_iff, ← not_lt]
        simp [hrange]

theorem chunk_unchanged_iff {chunk : Option ExecutionChunkCommitment} (hs : s.Consistent)
    (hraises : Raises (accumulateChunk sha256 chunk) s e s') :
    s' = s ↔ ¬ (AccumulatorCall.accumulateChunk chunk).Disturbs sha256 s := by
  simp only [AccumulatorCall.Disturbs]
  rcases raises_accumulateChunk hraises with ⟨hadmits, rfl⟩ | ⟨hadmits, h⟩
  · simp [hadmits]
  rcases hadmits.2 with hnone | hmode
  · have hne : s' ≠ s := by
      rcases h with ⟨-, rfl⟩ | ⟨c, -, ⟨-, -, rfl⟩ | ⟨-, -, -, rfl⟩ | ⟨-, ⟨-, rfl⟩ | ⟨-, rfl⟩⟩⟩ <;>
        exact ne_of_captureMode hnone rfl
    simp [hne, hadmits, hnone]
  · rw [inMode_eq_self.mpr hmode] at h
    rcases h with ⟨rfl, rfl⟩ | ⟨c, rfl, h⟩
    · simp [hmode]
    have hdisturbs : (s.captureMode = none ∨ ∃ c', some c = some c' ∧
        (s.chunkSidecarBindingMode = none ∨ s.SidecarMatches c'.val ∧
          Accepts (s.checkChunk c'.val) ∧ s.maxLogicalTokenExclusive ≠ c'.val.logicalEnd)) ↔
        s.chunkSidecarBindingMode = none ∨ s.SidecarMatches c.val ∧
          Accepts (s.checkChunk c.val) ∧ s.maxLogicalTokenExclusive ≠ c.val.logicalEnd := by
      simp [hmode]
    rw [hdisturbs, and_iff_right hadmits]
    rcases h with ⟨hsome, hmatches, rfl⟩ | ⟨hbinding, -, hmatches, rfl⟩ | ⟨hallows, h⟩
    · simp [hsome, hmatches]
    · rw [inBindingMode_eq_self]
      rcases hbinding with hbinding | hbinding <;> simp [hbinding, hmatches]
    · rcases hallows.1 with hbinding | hbinding
      · -- the call has fixed the binding
        have hne : s' ≠ s := by
          intro hself
          have hsome : s'.chunkSidecarBindingMode = some c.val.hasSidecarSchedulerBinding := by
            rcases h with ⟨-, rfl⟩ | ⟨-, rfl⟩ <;> rfl
          rw [hself, hbinding] at hsome
          cases hsome
        simp [hne, hbinding]
      · have hmatches : s.SidecarMatches c.val := by
          refine ⟨hbinding, fun hbound => (hallows.2 hbound).resolve_left ?_⟩
          rw [hbound] at hbinding
          exact hs.generation hbinding
        rw [bound_eq_self hmatches] at h
        rcases h with ⟨hchunk, rfl⟩ | ⟨hchunk, rfl⟩
        · simp [hchunk, hbinding]
        · rw [setMax_eq_self]
          simp [hchunk, hbinding, hmatches, eq_comm]

theorem unchanged_iff {call : AccumulatorCall} (hs : s.Consistent)
    (h : Raises (call.method sha256) s e s') : s' = s ↔ ¬ call.Disturbs sha256 s := by
  cases call with
  | begin profile precommitContext cacheEpoch => exact iff_of_true (raises_begin h) id
  | accumulateStage stageId tokenIndex stageRoot => exact stage_unchanged_iff h
  | accumulateChunk chunk => exact chunk_unchanged_iff hs h
  | accumulateKvPages address pageRoot => exact page_unchanged_iff hs h
  | sealPrefill contextTokenCount =>
    exact iff_of_true (raises_sealPrefill (raises_discard.mp h)) id
  | sealDecode decodeTokenCount outputBinding =>
    exact iff_of_true (raises_sealDecode (raises_discard.mp h)) id
  | freezePrecommit => exact iff_of_true (raises_freezePrecommit h) id
  | openPostnonce ticket => exact iff_of_true (raises_openPostnonce (raises_discard.mp h)) id
  | release => exact absurd h raises_release

end Accumulator

/-! ## Runs -/

/-- The calls of a list that return, from an object. -/
def acceptedFrom (sha256 : Bytes → Digest) (s : Accumulator) :
    List AccumulatorCall → List AccumulatorCall
  | [] => []
  | call :: calls =>
    match call.method sha256 s with
    | .ok _ s' => call :: acceptedFrom sha256 s' calls
    | .error _ s' => acceptedFrom sha256 s' calls

/-- No call of the list is refused in an object that it disturbs. -/
def UndisturbedFrom (sha256 : Bytes → Digest) (s : Accumulator) : List AccumulatorCall → Prop
  | [] => True
  | call :: calls =>
    (∀ e s', Raises (call.method sha256) s e s' → ¬ call.Disturbs sha256 s) ∧
      UndisturbedFrom sha256 (after (call.method sha256) s) calls

theorem afterCalls_acceptedFrom {calls : List AccumulatorCall} (hs : s.Consistent)
    (h : UndisturbedFrom sha256 s calls) :
    afterCallsFrom sha256 s (acceptedFrom sha256 s calls) = afterCallsFrom sha256 s calls := by
  induction calls generalizing s with
  | nil => rfl
  | cons call calls ih =>
    obtain ⟨hcall, hcalls⟩ := h
    change _ = afterCallsFrom sha256 (after (call.method sha256) s) calls
    rw [← ih hs.after hcalls]
    rcases returns_or_raises (call.method sha256) s with ⟨u, s', hreturns⟩ | ⟨e, s', hraises⟩
    · rw [acceptedFrom, show call.method sha256 s = .ok u s' from hreturns, after_of_returns hreturns]
      change afterCallsFrom sha256 (after (call.method sha256) s) _ = _
      rw [after_of_returns hreturns]
    · obtain rfl := (Accumulator.unchanged_iff hs hraises).mpr (hcall e s' hraises)
      rw [acceptedFrom, show call.method sha256 s' = .error e s' from hraises,
        after_of_raises hraises]

/-- In every reachable object, a refused call leaves the object as it was exactly when it does not
disturb it. In a run whose refused calls do not disturb, the object is the one that the accepted
calls alone give. -/
theorem accumulator_unchanged_iff (sha256 : Bytes → Digest) (calls : List AccumulatorCall) :
    (∀ (call : AccumulatorCall) (e : PyError) (s' : Accumulator),
      Raises (call.method sha256) (afterCalls sha256 calls) e s' →
        (s' = afterCalls sha256 calls ↔ ¬ call.Disturbs sha256 (afterCalls sha256 calls))) ∧
    (UndisturbedFrom sha256 {} calls →
      afterCalls sha256 (acceptedFrom sha256 {} calls) = afterCalls sha256 calls) := by
  constructor
  · intro call e s' h
    exact Accumulator.unchanged_iff (Accumulator.consistent_afterCalls sha256 calls) h
  · exact afterCalls_acceptedFrom Accumulator.consistent_new

/-- A chunk out of order that is bound to a sidecar. -/
def earlyBoundChunk : ExecutionChunkCommitment :=
  ⟨smallChunk .prefill 1 0 4 (some (constantDigest 2)), by decide⟩

/-- The first chunk of the small trace. -/
def firstChunk : ExecutionChunkCommitment := ⟨smallChunk .prefill 0 0 4 none, by decide⟩

/-- The first chunk is accepted at the start of a trace. After a chunk that was refused because of
its index, the object is another one, and it refuses the first chunk. -/
theorem refused_chunk_prevents_chunk :
    let s := afterCalls constantHash [smallBegin]
    let refused := AccumulatorCall.accumulateChunk (some earlyBoundChunk)
    let correct := AccumulatorCall.accumulateChunk (some firstChunk)
    (∃ e s', Raises (refused.method constantHash) s e s' ∧ s' ≠ s ∧
      ∃ e t, Raises (correct.method constantHash) s' e t) ∧
    ∃ u t, Returns (correct.method constantHash) s u t := by
  intro s refused correct
  have hrefused : succeeds (refused.method constantHash) s = false := by decide +kernel
  have hafter : succeeds (correct.method constantHash)
      (after (refused.method constantHash) s) = false := by decide +kernel
  have hcorrect : succeeds (correct.method constantHash) s = true := by decide +kernel
  obtain ⟨e, s', hraises⟩ := not_succeeds_iff.mp hrefused
  rw [after_of_raises hraises] at hafter
  refine ⟨⟨e, s', hraises, ?_, not_succeeds_iff.mp hafter⟩, succeeds_iff.mp hcorrect⟩
  rintro rfl
  rw [hafter] at hcorrect
  cases hcorrect

end Verathos.ProofV3
