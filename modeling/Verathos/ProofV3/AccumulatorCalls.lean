import Verathos.ProofV3.Accumulator

/-!
# How the calls on the accumulator end

Every method is described by the object that it leaves, when it returns and when it raises.

* `Admits mode`: the object records, and its capture mode is `mode` or not yet fixed. The three
  methods that record begin with this test, and with fixing the mode (`inMode`).
* `bound chunk`: the object with the sidecar binding of a chunk.

`AccumulatorCall` has the calls with their arguments, and `afterCalls` is the object after a list of
calls, each of which may return or raise.
-/

namespace Verathos.ProofV3

open Method
open PrefixCache (Constructed construct construct_eq_ok packI nonzero32 u32 positiveU32)

namespace Accumulator

variable {sha256 : Bytes → Digest} {s s' : Accumulator} {e : PyError} {u : Unit}

/-! ## Updates -/

/-- The object with its capture mode fixed. -/
def inMode (s : Accumulator) (mode : CaptureMode) : Accumulator :=
  { s with captureMode := some mode }

/-- The object records, and it does not record in another mode. -/
def Admits (s : Accumulator) (mode : CaptureMode) : Prop :=
  (s.state = .prefill ∨ s.state = .decode) ∧ (s.captureMode = none ∨ s.captureMode = some mode)

instance (mode : CaptureMode) : Decidable (s.Admits mode) :=
  inferInstanceAs (Decidable (_ ∧ _))

theorem inMode_eq_self {mode : CaptureMode} : s.inMode mode = s ↔ s.captureMode = some mode := by
  constructor
  · intro h
    exact (congrArg Accumulator.captureMode h).symm
  · intro h
    cases s
    cases h
    rfl

/-- The object with the binding mode of a chunk. -/
def inBindingMode (s : Accumulator) (chunk : ChunkFields) : Accumulator :=
  { s with chunkSidecarBindingMode := some chunk.hasSidecarSchedulerBinding }

/-- The object with the sidecar generation of a bound chunk. -/
def inGeneration (s : Accumulator) (chunk : ChunkFields) : Accumulator :=
  { s with
    chunkSidecarGenerationDigest :=
      if chunk.hasSidecarSchedulerBinding then chunk.sidecarGenerationDigest
      else s.chunkSidecarGenerationDigest }

/-- The binding of a chunk is the one of the chunks before it. -/
def SidecarMatches (s : Accumulator) (chunk : ChunkFields) : Prop :=
  s.chunkSidecarBindingMode = some chunk.hasSidecarSchedulerBinding ∧
    (chunk.hasSidecarSchedulerBinding →
      s.chunkSidecarGenerationDigest = chunk.sidecarGenerationDigest)

instance (chunk : ChunkFields) : Decidable (s.SidecarMatches chunk) :=
  inferInstanceAs (Decidable (_ ∧ _))

/-- The binding of a chunk does not contradict the chunks before it. -/
def SidecarAllows (s : Accumulator) (chunk : ChunkFields) : Prop :=
  (s.chunkSidecarBindingMode = none ∨
      s.chunkSidecarBindingMode = some chunk.hasSidecarSchedulerBinding) ∧
    (chunk.hasSidecarSchedulerBinding →
      s.chunkSidecarGenerationDigest = none ∨
        s.chunkSidecarGenerationDigest = chunk.sidecarGenerationDigest)

variable {chunk : ChunkFields}

theorem inBindingMode_eq_self :
    s.inBindingMode chunk = s ↔
      s.chunkSidecarBindingMode = some chunk.hasSidecarSchedulerBinding := by
  constructor
  · intro h
    exact (congrArg Accumulator.chunkSidecarBindingMode h).symm
  · intro h
    rw [inBindingMode, ← h]

theorem inGeneration_eq_self (h : chunk.hasSidecarSchedulerBinding →
      s.chunkSidecarGenerationDigest = chunk.sidecarGenerationDigest) :
    s.inGeneration chunk = s := by
  rw [inGeneration]
  split_ifs with hbinding
  · rw [← h hbinding]
  · rfl

theorem setMax_eq_self {logicalEnd : ℕ} :
    s.setMaxLogicalTokenExclusive logicalEnd = s ↔ logicalEnd = s.maxLogicalTokenExclusive := by
  unfold setMaxLogicalTokenExclusive maxLogicalTokenExclusive
  cases s
  split_ifs <;> simp

/-! ## The parts that the methods share -/

@[simp]
theorem returns_requireState {expected : List TraceState} :
    Returns (requireState expected) s u s' ↔ s.state ∈ expected ∧ s = s' := by
  simp [requireState, and_comm]

theorem raises_requireState {expected : List TraceState}
    (h : Raises (requireState expected) s e s') : s.state ∉ expected ∧ s' = s := by
  simp only [requireState, raises_bind, raises_get, returns_get, raises_check, false_or] at h
  obtain ⟨t, s₁, ⟨rfl, rfl⟩, hstate, -, rfl⟩ := h
  exact ⟨hstate, rfl⟩

@[simp]
theorem returns_requireCaptureMode {mode : CaptureMode} :
    Returns (requireCaptureMode mode) s u s' ↔
      (s.captureMode = none ∨ s.captureMode = some mode) ∧ s' = s.inMode mode :=
  returns_fixField inMode_eq_self.mpr

theorem raises_requireCaptureMode {mode : CaptureMode}
    (h : Raises (requireCaptureMode mode) s e s') :
    ¬ (s.captureMode = none ∨ s.captureMode = some mode) ∧ s' = s :=
  raises_fixField h

section Capture

variable {α : Type} {mode : CaptureMode} {rest : AccumulatorMethod α} {a : α}

theorem returns_capture
    (h : Returns (do requireState [.prefill, .decode]; requireCaptureMode mode; rest) s a s') :
    s.Admits mode ∧ Returns rest (s.inMode mode) a s' := by
  obtain ⟨_, s₁, hstate, _, s₂, hmode, hrest⟩ := by simpa only [returns_bind] using h
  obtain ⟨hstate, rfl⟩ := returns_requireState.mp hstate
  obtain ⟨hallowed, rfl⟩ := returns_requireCaptureMode.mp hmode
  exact ⟨⟨by simpa using hstate, hallowed⟩, hrest⟩

/-- A method that records raises when it is not admitted, with no change, or when its rest raises
in the object with its mode fixed. -/
theorem raises_capture
    (h : Raises (do requireState [.prefill, .decode]; requireCaptureMode mode; rest) s e s') :
    ¬ s.Admits mode ∧ s' = s ∨ s.Admits mode ∧ Raises rest (s.inMode mode) e s' := by
  rw [raises_bind] at h
  rcases h with hstate | ⟨_, s₁, hstate, h⟩
  · obtain ⟨hstate, rfl⟩ := raises_requireState hstate
    exact .inl ⟨fun hadmits => hstate (by simpa using hadmits.1), rfl⟩
  · obtain ⟨hstate, rfl⟩ := returns_requireState.mp hstate
    rw [raises_bind] at h
    rcases h with hmode | ⟨_, s₂, hmode, h⟩
    · obtain ⟨hmode, rfl⟩ := raises_requireCaptureMode hmode
      exact .inl ⟨fun hadmits => hmode hadmits.2, rfl⟩
    · obtain ⟨hallowed, rfl⟩ := returns_requireCaptureMode.mp hmode
      exact .inr ⟨⟨by simpa using hstate, hallowed⟩, h⟩

end Capture

/-- The object with one more record in the chain of its phase. -/
def appended (s : Accumulator) (sha256 : Bytes → Digest) (chain recordDigest : Digest) :
    Accumulator :=
  { s with
    prefillChain :=
      if s.state = .prefill then
        some (traceHash sha256 "PREFILL_EVENT" [chain.bytes, recordDigest.bytes])
      else s.prefillChain
    prefillRecordCount :=
      if s.state = .prefill then s.prefillRecordCount + 1 else s.prefillRecordCount
    decodeChain :=
      if s.state = .prefill then s.decodeChain
      else some (traceHash sha256 "DECODE_EVENT" [chain.bytes, recordDigest.bytes])
    decodeRecordCount :=
      if s.state = .prefill then s.decodeRecordCount else s.decodeRecordCount + 1 }

theorem returns_append {recordDigest : Digest}
    (h : Returns (append sha256 recordDigest) s u s') :
    ∃ chain, s' = s.appended sha256 chain recordDigest := by
  unfold append at h
  obtain ⟨t, s₁, hget, h⟩ := returns_bind.mp h
  obtain ⟨rfl, rfl⟩ := returns_get.mp hget
  split at h
  case h_1 hstate =>
    simp only [returns_bind, returns_check, returns_call, returns_modify] at h
    obtain ⟨_, _, ⟨-, rfl⟩, chain, _, ⟨-, rfl⟩, rfl⟩ := h
    exact ⟨chain, by simp [appended, hstate]⟩
  case h_2 hstate =>
    simp only [returns_bind, returns_check, returns_call, returns_modify] at h
    obtain ⟨_, _, ⟨-, rfl⟩, chain, _, ⟨-, rfl⟩, rfl⟩ := h
    exact ⟨chain, by simp [appended, hstate]⟩
  case h_3 => exact absurd h returns_throw

theorem raises_append {recordDigest : Digest}
    (h : Raises (append sha256 recordDigest) s e s') : s' = s := by
  unfold append at h
  rcases raises_bind.mp h with hget | ⟨t, s₁, hget, h⟩
  · exact absurd hget raises_get
  · obtain ⟨rfl, rfl⟩ := returns_get.mp hget
    split at h <;>
      simp only [raises_bind, raises_check, returns_check, raises_call, returns_call,
        raises_modify, raises_throw, and_false, exists_false, or_false] at h
    · rcases h with ⟨-, -, rfl⟩ | ⟨_, _, ⟨-, rfl⟩, -, rfl⟩ <;> rfl
    · rcases h with ⟨-, -, rfl⟩ | ⟨_, _, ⟨-, rfl⟩, -, rfl⟩ <;> rfl
    · exact h.2.symm

/-! ## Records -/

theorem returns_accumulateStage {stageId : Bytes} {tokenIndex : ℕ} {stageRoot : Bytes}
    (h : Returns (accumulateStage sha256 stageId tokenIndex stageRoot) s u s') :
    s.Admits .records ∧ ∃ chain recordDigest,
      s' = ((s.inMode .records).setMaxLogicalTokenExclusive
        (max s.maxLogicalTokenExclusive (tokenIndex + 1))).appended sha256 chain recordDigest := by
  obtain ⟨hadmits, h⟩ := returns_capture h
  simp only [returns_bind, returns_get, returns_call, returns_modify] at h
  obtain ⟨t, _, ⟨rfl, rfl⟩, record, _, ⟨-, rfl⟩, _, _, rfl, happend⟩ := h
  obtain ⟨chain, rfl⟩ := returns_append happend
  exact ⟨hadmits, chain, _, rfl⟩

/-- A refused stage leaves the mode fixed, and the last logical token if only `_append` refused
it. -/
theorem raises_accumulateStage {stageId : Bytes} {tokenIndex : ℕ} {stageRoot : Bytes}
    (h : Raises (accumulateStage sha256 stageId tokenIndex stageRoot) s e s') :
    ¬ s.Admits .records ∧ s' = s ∨
      s.Admits .records ∧
        (¬ Accepts (s.stageRecord stageId tokenIndex stageRoot) ∧ s' = s.inMode .records ∨
          Accepts (s.stageRecord stageId tokenIndex stageRoot) ∧
            s' = (s.inMode .records).setMaxLogicalTokenExclusive
              (max s.maxLogicalTokenExclusive (tokenIndex + 1))) := by
  refine (raises_capture h).imp_right fun ⟨hadmits, h⟩ => ⟨hadmits, ?_⟩
  simp only [raises_bind, raises_get, returns_get, raises_call, returns_call, raises_modify,
    returns_modify, false_or] at h
  obtain ⟨t, _, ⟨rfl, rfl⟩, ⟨hrecord, rfl⟩ | ⟨record, _, ⟨hrecord, rfl⟩, _, _, rfl, happend⟩⟩ := h
  · exact .inl ⟨not_accepts_of_eq_error hrecord, rfl⟩
  · exact .inr ⟨⟨record, hrecord⟩, raises_append happend⟩

/-! ## Pages -/

theorem returns_accumulateKvPages {address : Option LogicalKVPageAddress} {root : Bytes}
    (h : Returns (accumulateKvPages sha256 address root) s u s') :
    s.Admits .records ∧ ∃ a, address = some a ∧ ∃ rootDigest chain entry recordDigest,
      s' = ((((s.inMode .records).withPage a.val).withTableEvent sha256 a.val chain
        rootDigest).setMaxLogicalTokenExclusive (max s.maxLogicalTokenExclusive
          a.val.sequenceLength)).appended sha256 entry recordDigest := by
  obtain ⟨hadmits, h⟩ := returns_capture h
  simp only [returns_bind, returns_get, returns_call, returns_modify, instanceOf_eq_ok] at h
  obtain ⟨a, _, ⟨ha, rfl⟩, t, _, ⟨rfl, rfl⟩, rootDigest, _, ⟨-, rfl⟩, _, _, rfl, chain, _, ⟨-, rfl⟩,
    _, _, rfl, _, _, ⟨-, rfl⟩, _, _, rfl, happend⟩ := h
  obtain ⟨entry, rfl⟩ := returns_append happend
  exact ⟨hadmits, a, ha, rootDigest, chain, entry, _, rfl⟩

/-- A refused page leaves the mode fixed. When the checks before the first write pass, the version
and the chain of the table stay written, and the last logical token too if only `_append` refused
the page. -/
theorem raises_accumulateKvPages {address : Option LogicalKVPageAddress} {root : Bytes}
    (htables : ∀ a r, s.pageRoot a root = .ok r → Accepts (s.tableChain a.tableKey))
    (h : Raises (accumulateKvPages sha256 address root) s e s') :
    ¬ s.Admits .records ∧ s' = s ∨
      s.Admits .records ∧
        (address = none ∧ s' = s.inMode .records ∨
          ∃ a, address = some a ∧
            (¬ Accepts (s.pageRoot a.val root) ∧ s' = s.inMode .records ∨
              ∃ rootDigest chain, s.pageRoot a.val root = .ok rootDigest ∧
                s.tableChain a.val.tableKey = .ok chain ∧
                (¬ Accepts (s.checkRange a.val.sequenceLength "K/V range") ∧
                    s' = ((s.inMode .records).withPage a.val).withTableEvent sha256 a.val chain
                      rootDigest ∨
                  Accepts (s.checkRange a.val.sequenceLength "K/V range") ∧
                    s' = (((s.inMode .records).withPage a.val).withTableEvent sha256 a.val chain
                      rootDigest).setMaxLogicalTokenExclusive
                        (max s.maxLogicalTokenExclusive a.val.sequenceLength)))) := by
  refine (raises_capture h).imp_right fun ⟨hadmits, h⟩ => ⟨hadmits, ?_⟩
  rcases address with _ | a
  · simp only [instanceOf, raises_bind, raises_call, returns_call] at h
    rcases h with ⟨-, rfl⟩ | ⟨a, _, ⟨ha, -⟩, -⟩
    · exact .inl ⟨rfl, rfl⟩
    · cases ha
  · refine .inr ⟨a, rfl, ?_⟩
    simp only [instanceOf, raises_bind, raises_get, returns_get, raises_call, returns_call,
      raises_modify, returns_modify, false_or, reduceCtorEq, false_and, Except.ok.injEq] at h
    obtain ⟨_, _, ⟨rfl, rfl⟩, t, _, ⟨rfl, rfl⟩, ⟨hroot, rfl⟩ | ⟨rootDigest, _, ⟨hroot, rfl⟩, h⟩⟩ := h
    · exact .inl ⟨not_accepts_of_eq_error hroot, rfl⟩
    · obtain ⟨_, _, rfl, ⟨hchain, rfl⟩ | ⟨chain, _, ⟨hchain, rfl⟩, h⟩⟩ := h
      · exact absurd (htables a.val rootDigest hroot) (not_accepts_of_eq_error hchain)
      · refine .inr ⟨rootDigest, chain, hroot, hchain, ?_⟩
        obtain ⟨_, _, rfl, ⟨hrange, rfl⟩ | ⟨_, _, ⟨hrange, rfl⟩, _, _, rfl, happend⟩⟩ := h
        · exact .inl ⟨not_accepts_of_eq_error hrange, rfl⟩
        · exact .inr ⟨⟨_, hrange⟩, raises_append happend⟩

/-! ## Chunks -/

@[simp]
theorem returns_requireSidecarBindingMode :
    Returns (requireSidecarBindingMode chunk) s u s' ↔
      (s.chunkSidecarBindingMode = none ∨
          s.chunkSidecarBindingMode = some chunk.hasSidecarSchedulerBinding) ∧
        s' = s.inBindingMode chunk :=
  returns_fixField inBindingMode_eq_self.mpr

theorem raises_requireSidecarBindingMode (h : Raises (requireSidecarBindingMode chunk) s e s') :
    ¬ (s.chunkSidecarBindingMode = none ∨
        s.chunkSidecarBindingMode = some chunk.hasSidecarSchedulerBinding) ∧ s' = s :=
  raises_fixField h

theorem returns_requireSidecarGeneration (h : Returns (requireSidecarGeneration chunk) s u s') :
    (chunk.hasSidecarSchedulerBinding → s.chunkSidecarGenerationDigest = none ∨
      s.chunkSidecarGenerationDigest = chunk.sidecarGenerationDigest) ∧
      s' = s.inGeneration chunk := by
  unfold requireSidecarGeneration at h
  unfold inGeneration
  split_ifs at h ⊢ with hbinding
  · obtain ⟨hgeneration, rfl⟩ := (returns_fixField fun hgeneration => by rw [← hgeneration]).mp h
    exact ⟨fun _ => hgeneration, rfl⟩
  · exact ⟨fun hbinding' => absurd hbinding' hbinding, (returns_pure.mp h).2.symm⟩

theorem raises_requireSidecarGeneration (h : Raises (requireSidecarGeneration chunk) s e s') :
    chunk.hasSidecarSchedulerBinding ∧ s.chunkSidecarGenerationDigest ≠ none ∧
      s.chunkSidecarGenerationDigest ≠ chunk.sidecarGenerationDigest ∧ s' = s := by
  unfold requireSidecarGeneration at h
  split_ifs at h with hbinding
  · obtain ⟨hgeneration, rfl⟩ := raises_fixField h
    exact ⟨hbinding, fun heq => hgeneration (.inl heq), fun heq => hgeneration (.inr heq), rfl⟩
  · exact absurd h raises_pure

/-- The object after a chunk was absorbed. -/
def withChunk (s : Accumulator) (chunk : ChunkFields) : Accumulator :=
  { s with
    nextChunkIndex := s.nextChunkIndex + 1
    nextChunkTokenStart := chunk.logicalEnd
    lastChunkExitStateRoot := some chunk.exitStateRoot
    lastChunkCacheTableRoot := some chunk.cacheTableRoot }

theorem returns_absorbChunk (h : Returns (absorbChunk sha256 chunk) s u s') :
    Accepts (s.checkChunk chunk) ∧ Accepts (s.checkEntryState chunk) ∧ ∃ chain,
      s' = ((s.setMaxLogicalTokenExclusive chunk.logicalEnd).appended sha256 chain
        (chunk.digest sha256)).withChunk chunk := by
  simp only [absorbChunk, returns_bind, returns_get, returns_call, returns_modify] at h
  obtain ⟨t, _, ⟨rfl, rfl⟩, _, _, ⟨hchunk, rfl⟩, _, _, rfl, _, _, ⟨hentry, rfl⟩, _, _, happend,
    rfl⟩ := h
  obtain ⟨chain, rfl⟩ := returns_append happend
  exact ⟨⟨_, hchunk⟩, ⟨_, hentry⟩, chain, rfl⟩

theorem raises_absorbChunk (h : Raises (absorbChunk sha256 chunk) s e s') :
    ¬ Accepts (s.checkChunk chunk) ∧ s' = s ∨
      Accepts (s.checkChunk chunk) ∧ s' = s.setMaxLogicalTokenExclusive chunk.logicalEnd := by
  simp only [absorbChunk, raises_bind, raises_get, returns_get, raises_call, returns_call,
    raises_modify, returns_modify, false_or, or_false, and_false, exists_false] at h
  obtain ⟨t, _, ⟨rfl, rfl⟩, ⟨hchunk, rfl⟩ | ⟨_, _, ⟨hchunk, rfl⟩, _, _, rfl, h⟩⟩ := h
  · exact .inl ⟨not_accepts_of_eq_error hchunk, rfl⟩
  · refine .inr ⟨⟨_, hchunk⟩, ?_⟩
    rcases h with ⟨-, rfl⟩ | ⟨_, _, ⟨-, rfl⟩, happend⟩
    · rfl
    · exact raises_append happend

/-- The object with the sidecar binding of a chunk. -/
def bound (s : Accumulator) (chunk : ChunkFields) : Accumulator :=
  (s.inBindingMode chunk).inGeneration chunk

theorem bound_eq_self (h : s.SidecarMatches chunk) : s.bound chunk = s := by
  rw [bound, inBindingMode_eq_self.mpr h.1, inGeneration_eq_self h.2]

theorem returns_accumulateChunk {chunk : Option ExecutionChunkCommitment}
    (h : Returns (accumulateChunk sha256 chunk) s u s') :
    s.Admits .chunks ∧ ∃ c chain, chunk = some c ∧ Accepts (s.checkChunk c.val) ∧
      Accepts (s.checkEntryState c.val) ∧
      s' = ((((s.inMode .chunks).bound c.val).setMaxLogicalTokenExclusive
        c.val.logicalEnd).appended sha256 chain (c.val.digest sha256)).withChunk c.val := by
  obtain ⟨hadmits, h⟩ := returns_capture h
  simp only [returns_bind, returns_call, instanceOf_eq_ok, returns_requireSidecarBindingMode] at h
  obtain ⟨c, _, ⟨rfl, rfl⟩, _, _, ⟨-, rfl⟩, _, _, hgeneration, h⟩ := h
  obtain ⟨-, rfl⟩ := returns_requireSidecarGeneration hgeneration
  obtain ⟨hchunk, hentry, chain, rfl⟩ := returns_absorbChunk h
  exact ⟨hadmits, c, chain, rfl, hchunk, hentry, rfl⟩

/-- A refused chunk leaves the mode fixed, then the sidecar binding, and the last logical token too
when its coordinates are right. -/
theorem raises_accumulateChunk {chunk : Option ExecutionChunkCommitment}
    (h : Raises (accumulateChunk sha256 chunk) s e s') :
    ¬ s.Admits .chunks ∧ s' = s ∨
      s.Admits .chunks ∧
        (chunk = none ∧ s' = s.inMode .chunks ∨
          ∃ c, chunk = some c ∧
            (s.chunkSidecarBindingMode ≠ none ∧ ¬ s.SidecarMatches c.val ∧
                s' = s.inMode .chunks ∨
              (s.chunkSidecarBindingMode = none ∨
                  s.chunkSidecarBindingMode = some c.val.hasSidecarSchedulerBinding) ∧
                s.chunkSidecarGenerationDigest ≠ none ∧ ¬ s.SidecarMatches c.val ∧
                s' = (s.inMode .chunks).inBindingMode c.val ∨
              s.SidecarAllows c.val ∧
                (¬ Accepts (s.checkChunk c.val) ∧ s' = (s.inMode .chunks).bound c.val ∨
                  Accepts (s.checkChunk c.val) ∧ s' = ((s.inMode .chunks).bound
                    c.val).setMaxLogicalTokenExclusive c.val.logicalEnd))) := by
  refine (raises_capture h).imp_right fun ⟨hadmits, h⟩ => ⟨hadmits, ?_⟩
  rcases chunk with _ | c
  · simp only [instanceOf, raises_bind, raises_call, returns_call] at h
    rcases h with ⟨-, rfl⟩ | ⟨a, _, ⟨ha, -⟩, -⟩
    · exact .inl ⟨rfl, rfl⟩
    · cases ha
  · refine .inr ⟨c, rfl, ?_⟩
    simp only [instanceOf, raises_bind, raises_call, returns_call, reduceCtorEq, false_and,
      false_or, Except.ok.injEq] at h
    obtain ⟨_, _, ⟨rfl, rfl⟩, hmode | ⟨_, _, hmode, h⟩⟩ := h
    · obtain ⟨hrefused, rfl⟩ := raises_requireSidecarBindingMode hmode
      exact .inl ⟨fun hnone => hrefused (.inl hnone),
        fun hmatches => hrefused (.inr hmatches.1), rfl⟩
    · obtain ⟨hallowed, rfl⟩ := returns_requireSidecarBindingMode.mp hmode
      rcases h with hgeneration | ⟨_, _, hgeneration, h⟩
      · obtain ⟨hbinding, hsome, hrefused, rfl⟩ := raises_requireSidecarGeneration hgeneration
        exact .inr (.inl
          ⟨hallowed, hsome, fun hmatches => hrefused (hmatches.2 hbinding), rfl⟩)
      · obtain ⟨hgenerations, rfl⟩ := returns_requireSidecarGeneration hgeneration
        exact .inr (.inr ⟨⟨hallowed, hgenerations⟩, raises_absorbChunk h⟩)

/-! ## `begin` -/

theorem tableBindings_ne_nil (cache : CacheRelationSpec) :
    cache.val.tableBindings.entries ≠ [] := by
  have hcache := cache.property
  simp only [CacheRelationFields.postInit, bind_eq_ok, raiseIf_eq_ok, exists_const] at hcache
  obtain ⟨_, -, _, -, hfamilies, -⟩ := hcache
  obtain ⟨family, hfamily⟩ := List.exists_mem_of_ne_nil _ hfamilies
  obtain ⟨entry, hentry⟩ : ∃ entry, entry ∈ family.tableBindings := by
    unfold LayerCacheRelation.tableBindings
    cases family.tables with
    | attentionKv keyTensorId valueTensorId => exact ⟨_, List.mem_cons_self⟩
    | gdnState first rest => exact ⟨_, List.mem_cons_self⟩
  obtain ⟨binding, hbinding⟩ := OrderedDict.exists_get_ofList
    (List.mem_map_of_mem (List.mem_flatMap.mpr ⟨family, hfamily, hentry⟩))
  exact List.ne_nil_of_mem (OrderedDict.get_eq_some.mp hbinding)

/-- The object that `begin` leaves. -/
def started (s : Accumulator) (sha256 : Bytes → Digest) (profile : ExecutionSecurityProfile)
    (precommitContext : PreExecutionRequestContext) (cacheEpoch : ℕ) (context anchor : Digest) :
    Accumulator :=
  { s with
    state := .prefill
    context := some context
    prefillChain := some (traceHash sha256 "PREFILL_INIT" [context.bytes])
    cacheEpoch := cacheEpoch
    maxVerifiedContextTokens := profile.val.maxVerifiedContextTokens
    maxVerifiedDecodeTokens := profile.val.maxVerifiedDecodeTokens
    precommitContext := some precommitContext
    initialExecutionStateAnchor := some anchor
    profile := some profile
    cacheTableBindings := profile.val.relationSpec.val.cache.val.tableBindings
    cachePageTokenCount := profile.val.relationSpec.val.cache.val.pageTokenCount
    cacheMaxTokens := profile.val.relationSpec.val.cache.val.maxCacheTokens
    cacheLatestVersions := fun _ => none
    cacheFinalLengths := fun _ => none
    cacheWrittenTables := ∅
    cacheTableChains :=
      initialChains sha256 context profile.val.relationSpec.val.cache.val.tableBindings }

theorem returns_begin {profile : Option ExecutionSecurityProfile}
    {precommitContext : Option PreExecutionRequestContext} {cacheEpoch : ℕ}
    (h : Returns (begin sha256 profile precommitContext cacheEpoch) s u s') :
    s.state = .new ∧ ∃ p c context anchor, profile = some p ∧ precommitContext = some c ∧
      checkBegin sha256 p c cacheEpoch = .ok context ∧
      c.val.initialExecutionStateAnchor sha256 = .ok anchor ∧
      s' = s.started sha256 p c cacheEpoch context anchor := by
  simp only [begin, returns_bind, returns_requireState, returns_call, instanceOf_eq_ok,
    returns_modify, returns_check] at h
  obtain ⟨_, _, ⟨hstate, rfl⟩, p, _, ⟨hp, rfl⟩, c, _, ⟨hc, rfl⟩, context, _, ⟨hcontext, rfl⟩, _, _,
    rfl, anchor, _, ⟨hanchor, rfl⟩, _, _, rfl, _, _, ⟨-, rfl⟩, rfl⟩ := h
  exact ⟨by simpa using hstate, p, c, context, anchor, hp, hc, hcontext, hanchor, rfl⟩

/-- A refused `begin` has written nothing: the anchor of a context can be derived, and the signed
caches have a table. -/
theorem raises_begin {profile : Option ExecutionSecurityProfile}
    {precommitContext : Option PreExecutionRequestContext} {cacheEpoch : ℕ}
    (h : Raises (begin sha256 profile precommitContext cacheEpoch) s e s') : s' = s := by
  simp only [begin, raises_bind, returns_requireState, raises_call, returns_call,
    instanceOf_eq_ok, raises_modify, returns_modify, raises_check, returns_check, false_or,
    or_false, and_false, exists_false] at h
  rcases h with h | ⟨_, _, ⟨-, rfl⟩, ⟨-, rfl⟩ | ⟨p, _, ⟨-, rfl⟩, ⟨-, rfl⟩ | ⟨c, _, ⟨-, rfl⟩, ⟨-, rfl⟩ |
    ⟨context, _, ⟨-, rfl⟩, _, _, rfl, ⟨hanchor, -⟩ | ⟨anchor, _, -, _, _, -, htables, -⟩⟩⟩⟩⟩
  · exact (raises_requireState h).2
  · rfl
  · rfl
  · rfl
  · obtain ⟨digest, hdigest⟩ := exists_precommitDigest sha256 c
    simp [PrecommitContextFields.initialExecutionStateAnchor, hdigest, bind, Except.bind, pure,
      Except.pure] at hanchor
  · exact absurd htables (tableBindings_ne_nil p.val.relationSpec.val.cache)

/-! ## Seals -/

/-- The object that `seal_prefill` leaves. -/
def withPrefillSeal (s : Accumulator) (sha256 : Bytes → Digest) (contextTokenCount : ℕ)
    (context prefillRoot : Digest) : Accumulator :=
  { s with
    prefillRoot := some prefillRoot
    contextTokenCount := contextTokenCount
    decodeMaxLogicalTokenExclusive :=
      if s.captureMode = some .chunks then contextTokenCount
      else s.decodeMaxLogicalTokenExclusive
    decodeChain := some (traceHash sha256 "DECODE_INIT" [context.bytes, prefillRoot.bytes])
    state := .decode }

theorem returns_sealPrefill {contextTokenCount : ℕ} {root : Digest}
    (h : Returns (sealPrefill sha256 contextTokenCount) s root s') :
    s.state = .prefill ∧ ∃ context,
      s.sealedPrefillRoot sha256 contextTokenCount = .ok (context, root) ∧
      s' = s.withPrefillSeal sha256 contextTokenCount context root := by
  simp only [sealPrefill, returns_bind, returns_requireState, returns_get, returns_call,
    returns_modify, returns_pure] at h
  obtain ⟨_, _, ⟨hstate, rfl⟩, t, _, ⟨rfl, rfl⟩, ⟨context, _⟩, _, ⟨hroot, rfl⟩, _, _, rfl, rfl, rfl⟩ := h
  exact ⟨by simpa using hstate, context, hroot, rfl⟩

theorem raises_sealPrefill {contextTokenCount : ℕ}
    (h : Raises (sealPrefill sha256 contextTokenCount) s e s') : s' = s := by
  simp only [sealPrefill, raises_bind, returns_requireState, raises_get, returns_get, raises_call,
    returns_call, raises_modify, raises_pure, false_or, or_false, and_false, exists_false] at h
  rcases h with h | ⟨_, _, ⟨-, rfl⟩, t, _, ⟨rfl, rfl⟩, -, rfl⟩
  · exact (raises_requireState h).2
  · rfl

theorem returns_sealDecode {decodeTokenCount : ℕ} {outputBinding : Option ExecutionOutputBinding}
    {commitment : ExecutionAccumulatorCommitment}
    (h : Returns (sealDecode sha256 decodeTokenCount outputBinding) s commitment s') :
    s.state = .decode ∧ ∃ output, s.checkSealDecode decodeTokenCount outputBinding = .ok output ∧
      s.sealedCommitmentFor sha256 decodeTokenCount output = .ok commitment ∧
      s' = { s with sealedCommitment := some commitment, state := .sealed } := by
  simp only [sealDecode, returns_bind, returns_requireState, returns_get, returns_call,
    returns_modify, returns_pure] at h
  obtain ⟨_, _, ⟨hstate, rfl⟩, t, _, ⟨rfl, rfl⟩, output, _, ⟨houtput, rfl⟩, _, _,
    ⟨hcommitment, rfl⟩, _, _, rfl, rfl, rfl⟩ := h
  exact ⟨by simpa using hstate, output, houtput, hcommitment, rfl⟩

theorem raises_sealDecode {decodeTokenCount : ℕ} {outputBinding : Option ExecutionOutputBinding}
    (h : Raises (sealDecode sha256 decodeTokenCount outputBinding) s e s') : s' = s := by
  simp only [sealDecode, raises_bind, returns_requireState, raises_get, returns_get, raises_call,
    returns_call, raises_modify, raises_pure, false_or, or_false, and_false, exists_false] at h
  rcases h with h | ⟨_, _, ⟨-, rfl⟩, t, _, ⟨rfl, rfl⟩, ⟨-, rfl⟩ | ⟨_, _, ⟨-, rfl⟩, -, rfl⟩⟩
  · exact (raises_requireState h).2
  · rfl
  · rfl

/-! ## After the seals -/

theorem returns_freezePrecommit (h : Returns freezePrecommit s u s') :
    s.state = .sealed ∧ s' = { s with state := .frozen } := by
  simp only [freezePrecommit, returns_bind, returns_requireState, returns_modify] at h
  obtain ⟨_, _, ⟨hstate, rfl⟩, rfl⟩ := h
  exact ⟨by simpa using hstate, rfl⟩

theorem raises_freezePrecommit (h : Raises freezePrecommit s e s') : s' = s := by
  simp only [freezePrecommit, raises_bind, raises_modify, or_false, and_false, exists_false] at h
  exact (raises_requireState h).2

theorem returns_openPostnonce {ticket : Option PostCommitOpeningTicket} {opening : Bytes} :
    ¬ Returns (openPostnonce sha256 ticket) s opening s' := by
  simp [openPostnonce]

theorem raises_openPostnonce {ticket : Option PostCommitOpeningTicket}
    (h : Raises (openPostnonce sha256 ticket) s e s') : s' = s := by
  simp only [openPostnonce, raises_bind, returns_requireState, raises_get, returns_get, raises_call,
    returns_call, raises_throw, false_or] at h
  rcases h with h | ⟨_, _, ⟨-, rfl⟩, t, _, ⟨rfl, rfl⟩, ⟨-, rfl⟩ | ⟨_, _, ⟨-, rfl⟩, -, rfl⟩⟩
  · exact (raises_requireState h).2
  · rfl
  · rfl

theorem raises_release : ¬ Raises release s e s' := raises_modify

end Accumulator

/-! ## Calls -/

/-- A call on the accumulator. -/
inductive AccumulatorCall where
  | begin (profile : Option ExecutionSecurityProfile)
      (precommitContext : Option PreExecutionRequestContext) (cacheEpoch : ℕ)
  | accumulateStage (stageId : Bytes) (tokenIndex : ℕ) (stageRoot : Bytes)
  | accumulateChunk (chunk : Option ExecutionChunkCommitment)
  | accumulateKvPages (address : Option LogicalKVPageAddress) (pageRoot : Bytes)
  | sealPrefill (contextTokenCount : ℕ)
  | sealDecode (decodeTokenCount : ℕ) (outputBinding : Option ExecutionOutputBinding)
  | freezePrecommit
  | openPostnonce (ticket : Option PostCommitOpeningTicket)
  | release

/-- The method that is called, without its value. -/
def AccumulatorCall.method (sha256 : Bytes → Digest) : AccumulatorCall → AccumulatorMethod Unit
  | .begin profile precommitContext cacheEpoch =>
    Accumulator.begin sha256 profile precommitContext cacheEpoch
  | .accumulateStage stageId tokenIndex stageRoot =>
    Accumulator.accumulateStage sha256 stageId tokenIndex stageRoot
  | .accumulateChunk chunk => Accumulator.accumulateChunk sha256 chunk
  | .accumulateKvPages address pageRoot =>
    Accumulator.accumulateKvPages sha256 address pageRoot
  | .sealPrefill contextTokenCount => do
    let _ ← Accumulator.sealPrefill sha256 contextTokenCount
  | .sealDecode decodeTokenCount outputBinding => do
    let _ ← Accumulator.sealDecode sha256 decodeTokenCount outputBinding
  | .freezePrecommit => Accumulator.freezePrecommit
  | .openPostnonce ticket => do
    let _ ← Accumulator.openPostnonce sha256 ticket
  | .release => Accumulator.release

/-- The object after a list of calls, each of which may be refused. -/
def afterCallsFrom (sha256 : Bytes → Digest) (s : Accumulator) (calls : List AccumulatorCall) :
    Accumulator :=
  calls.foldl (fun s call => after (call.method sha256) s) s

/-- A new object after a list of calls. -/
def afterCalls (sha256 : Bytes → Digest) (calls : List AccumulatorCall) : Accumulator :=
  afterCallsFrom sha256 {} calls

/-! ## Small traces -/

/-- A hash with one value. -/
def constantHash (_ : Bytes) : Digest := constantDigest 1

/-- A context of 10 tokens for the small folded profile, under the constant hash. -/
def smallPrecommitContext : PreExecutionRequestContext :=
  ⟨{ proofChallengeId := constantDigest 4
     validatorIdentityDigest := constantDigest 5
     minerIdentityDigest := constantDigest 6
     staticManifestDigest := constantDigest 1
     executionProfileDigest := constantDigest 1
     promptTokenRoot := constantDigest 7
     contextTokenCount := 10
     cacheLeaseDigest := constantDigest 8
     samplerConfigDigest := constantDigest 9
     validatorNonceCommitment := constantDigest 10 }, by decide⟩

/-- A chunk whose roots are equal, with the coverage digest of its generation. -/
def smallChunk (phase : ChunkPhase) (chunkIndex logicalTokenStart tokenCount : ℕ)
    (sidecarGenerationDigest : Option Digest) : ChunkFields where
  phase := phase
  chunkIndex := chunkIndex
  logicalTokenStart := logicalTokenStart
  tokenCount := tokenCount
  cacheLeaseDigest := constantDigest 8
  entryStateRoot := constantDigest 1
  exitStateRoot := constantDigest 1
  linearTableRoot := constantDigest 1
  bridgeTableRoot := constantDigest 1
  transitionTableRoot := constantDigest 1
  cacheTableRoot := constantDigest 1
  sidecarGenerationDigest := sidecarGenerationDigest
  schedulerCoverageDigest := sidecarGenerationDigest

/-- `begin` with the small folded profile. -/
def smallBegin : AccumulatorCall :=
  .begin (some smallFoldedProfile) (some smallPrecommitContext) 0

end Verathos.ProofV3
