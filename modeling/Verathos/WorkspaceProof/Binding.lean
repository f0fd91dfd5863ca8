import Verathos.WorkspaceProof.Defs

/-!
# What a workspace transcript binds

The transcript root fixes the bytes of all roots together, with counters between them and no
lengths. So it fixes every root as soon as the lengths of the roots are known, and not before.

* `workspaceTranscriptMessage_eq_ok`, `workspaceTranscriptMessageV2_eq_ok`: the hashed messages, as
  frames of decoded roots;
* `Accepted`: what the checks establish;
* `capacityTranscript_binds`: two accepted payloads with one transcript root have the same roots
  exactly when their roots have the same lengths;
* `transcript_has_two_readings`: two accepted payloads with one transcript and different roots.
-/

namespace Verathos.WorkspaceProof

open CounterFrame

variable {u : Unit}

@[simp]
theorem rejectIf_eq_ok {condition : Prop} [Decidable condition] {reason : String} :
    rejectIf condition reason = .ok u ↔ ¬ condition := by
  unfold rejectIf
  split_ifs with h <;> simp [h]

variable {α : Type}

@[simp]
theorem require_eq_ok {value : PyList α} {reason : String} {items : List α} :
    value.require reason = .ok items ↔ value = .list items := by
  cases value <;> simp [PyList.require]

variable {bytes : Bytes}

@[simp]
theorem packU64_eq_ok {value : ℤ} :
    packU64 value = .ok bytes ↔ (0 ≤ value ∧ value < 2 ^ 64) ∧ bytes = u64 value.toNat := by
  simp only [packU64, bind_eq_ok, rejectIf_eq_ok, pure_eq_ok, exists_const, not_or, not_lt, not_le,
    @eq_comm _ bytes]

theorem rootBytes_toText (bytes : Bytes) : rootBytes (Hex.toText bytes) = .ok bytes := by
  rw [rootBytes, Hex.toText, String.toList_ofList, Hex.stripPrefix_toDigits, Hex.ofDigits_toDigits]

/-! ## Decoded roots -/

/-- The items of a list. -/
def PyList.items {α : Type} : PyList α → List α
  | list items => items
  | _ => []

/-- The bytes of a root. -/
def decoded (root : String) : Bytes :=
  match rootBytes root with
  | .ok bytes => bytes
  | .error _ => []

/-- The decoded round roots of a payload, by pass and round. -/
def Payload.roundRoots (proof : Payload) : List (List Bytes) :=
  proof.rootChain.items.map fun entry => entry.roundRoots.items.map decoded

/-- The decoded state roots of a payload, by pass, round and mix. -/
def Payload.stateRoots (proof : Payload) : List (List (List Bytes)) :=
  proof.stateRootChain.items.map fun entry =>
    entry.roundStateRoots.items.map fun roots => roots.items.map decoded

/-- What a protocol version hashes of a payload. -/
def transcriptMessage (version : ℤ) (proof : Payload) : Check Bytes :=
  if version = 1 then workspaceTranscriptMessage proof.rootChain.items
  else workspaceTranscriptMessageV2 proof.rootChain.items proof.stateRootChain.items

/-- The transcripts of two payloads are different messages with one digest. -/
def TranscriptCollision (sha256 : Bytes → Digest) (version : ℤ) (proof proof' : Payload) : Prop :=
  ∃ message message', transcriptMessage version proof = .ok message ∧
    transcriptMessage version proof' = .ok message' ∧ message ≠ message' ∧
      sha256 message = sha256 message'

theorem orEmpty_eq_ok {value : PyList α} {items : List α} (h : value.orEmpty = .ok items) :
    items = value.items := by
  cases value with
  | none => exact (Except.ok.inj h).symm
  | list values => exact (Except.ok.inj h).symm
  | other => cases h

theorem decoded_eq {root : String} (h : rootBytes root = .ok bytes) : decoded root = bytes := by
  rw [decoded, h]

theorem eq_map_of_mapM {β : Type} {f : α → Check β} {g : α → β} {items : List α} {values : List β}
    (hvalue : ∀ a b, f a = .ok b → b = g a) (h : items.mapM f = .ok values) :
    values = items.map g := by
  have hitems := mapM_eq_ok.mp h
  clear h
  induction hitems with
  | nil => rfl
  | cons hitem _ ih => rw [List.map_cons, ← ih, hvalue _ _ hitem]

theorem mapM_rootBytes_eq_ok {roots : List String} {bytes : List Bytes}
    (h : roots.mapM rootBytes = .ok bytes) : bytes = roots.map decoded :=
  eq_map_of_mapM (fun _ _ hroot => (decoded_eq hroot).symm) h

/-! ## Messages -/

variable {sha256 : Bytes → Digest} {γ σ : Type}

/-- The count of the values and a frame of their writings. -/
def counted (write : γ → Bytes) (values : List γ) : Bytes :=
  u64 values.length ++ frame u64 0 (values.map write)

theorem fixedBy_counted {shape : γ → σ} {write : γ → Bytes} (h : FixedBy shape write) :
    FixedBy (List.map shape) (counted write) := by
  apply (h.frame u64 0).prepend
  intro v v' hshape
  have hlength := congrArg List.length hshape
  rw [List.length_map, List.length_map] at hlength
  rw [hlength]

/-- The bytes of a list of roots. -/
def rootsChunk : List Bytes → Bytes := counted fun root => root

/-- The bytes of a pass after its index: the pass root and the round roots. -/
def passChunk (pass : Bytes × List Bytes) : Bytes := pass.1 ++ rootsChunk pass.2

/-- The bytes of the state roots of a pass after its index. -/
def stateChunk : List (List Bytes) → Bytes := counted rootsChunk

theorem fixedBy_rootsChunk : FixedBy (List.map List.length) rootsChunk :=
  fixedBy_counted FixedBy.list

theorem fixedBy_passes :
    FixedBy (List.map (Prod.map List.length (List.map List.length))) (counted passChunk) :=
  fixedBy_counted (FixedBy.list.append fixedBy_rootsChunk)

theorem fixedBy_states :
    FixedBy (List.map (List.map (List.map List.length))) (counted stateChunk) :=
  fixedBy_counted (fixedBy_counted fixedBy_rootsChunk)

/-- The decoded roots of an entry. -/
def PassEntry.roots (entry : PassEntry) : Bytes × List Bytes :=
  (decoded entry.passRoot, entry.roundRoots.items.map decoded)

/-- The decoded state roots of a pass, by round. -/
def StatePassEntry.roots (entry : StatePassEntry) : List (List Bytes) :=
  entry.roundStateRoots.items.map fun roots => roots.items.map decoded

/-- Entries whose indices count from a position. -/
def Indexed {α : Type} (index : α → Option ℤ) (position : ℕ) (entries : List α) : Prop :=
  ∀ i entry, entries[i]? = some entry → index entry = some ((position + i : ℕ) : ℤ)

variable {position : ℕ}

theorem Indexed.cons {index : α → Option ℤ} {entry : α} {entries : List α} :
    Indexed index position (entry :: entries) ↔
      index entry = some (position : ℤ) ∧ Indexed index (position + 1) entries := by
  constructor
  · intro h
    refine ⟨h 0 entry rfl, fun i e he => ?_⟩
    rw [h (i + 1) e he, Nat.add_right_comm, Nat.add_assoc]
  · rintro ⟨hentry, hentries⟩ i e he
    cases i with
    | zero =>
      obtain rfl := Option.some.inj he
      exact hentry
    | succ i => rw [hentries i e he, Nat.add_right_comm, Nat.add_assoc]

/-- The bytes of indexed entries in order are a frame, as soon as every entry writes its index and
its chunk. -/
theorem flatten_eq_frame {index : α → Option ℤ} {write : α → Check Bytes} {chunk : α → Bytes}
    {entries : List α} {written : List Bytes}
    (hwrite : ∀ entry position bytes, index entry = some ((position : ℕ) : ℤ) →
      write entry = .ok bytes → bytes = u64 position ++ chunk entry)
    (hindex : Indexed index position entries) (h : entries.mapM write = .ok written) :
    written.flatten = frame u64 position (entries.map chunk) := by
  induction entries generalizing position written with
  | nil =>
    obtain rfl := Except.ok.inj h
    rfl
  | cons entry entries ih =>
    obtain ⟨hentry, hentries⟩ := Indexed.cons.mp hindex
    rw [List.mapM_cons] at h
    simp only [bind_eq_ok, pure_eq_ok] at h
    obtain ⟨bytes, hbytes, rest, hrest, rfl⟩ := h
    rw [List.flatten_cons, hwrite _ _ _ hentry hbytes, ih hentries hrest, List.map_cons,
      frame, List.append_assoc]

theorem passEntryBytes_eq_ok (entry : PassEntry) (position : ℕ) (bytes : Bytes)
    (hindex : entry.passIndex = some (position : ℤ)) (h : passEntryBytes entry = .ok bytes) :
    bytes = u64 position ++ passChunk entry.roots := by
  simp only [passEntryBytes, hindex, Option.getD_some, bind_eq_ok, packU64_eq_ok, pure_eq_ok] at h
  obtain ⟨_, ⟨-, rfl⟩, passRoot, hpassRoot, items, hitems, roots, hroots, rfl⟩ := h
  rw [passChunk, rootsChunk, counted, List.map_id', PassEntry.roots, ← orEmpty_eq_ok hitems,
    ← mapM_rootBytes_eq_ok hroots, decoded_eq hpassRoot, Int.toNat_natCast]

theorem stateRoundBytes_eq_ok {stateRoots : PyList String}
    (h : stateRoundBytes stateRoots = .ok bytes) :
    bytes = rootsChunk (stateRoots.items.map decoded) := by
  simp only [stateRoundBytes, bind_eq_ok, require_eq_ok, pure_eq_ok] at h
  obtain ⟨items, rfl, roots, hroots, rfl⟩ := h
  rw [rootsChunk, counted, List.map_id', PyList.items, ← mapM_rootBytes_eq_ok hroots]

theorem statePassBytes_eq_ok (entry : StatePassEntry) (position : ℕ) (bytes : Bytes)
    (hindex : entry.passIndex = some (position : ℤ)) (h : statePassBytes entry = .ok bytes) :
    bytes = u64 position ++ stateChunk entry.roots := by
  simp only [statePassBytes, hindex, Option.getD_some, bind_eq_ok, packU64_eq_ok, pure_eq_ok] at h
  obtain ⟨_, ⟨-, rfl⟩, items, hitems, rounds, hrounds, rfl⟩ := h
  have hchunks : rounds = entry.roots.map rootsChunk := by
    rw [eq_map_of_mapM (fun _ _ hround => stateRoundBytes_eq_ok hround) hrounds,
      orEmpty_eq_ok hitems, StatePassEntry.roots, List.map_map]
    rfl
  rw [stateChunk, counted, hchunks, List.length_map, Int.toNat_natCast]

variable {entries : List PassEntry} {message : Bytes}

theorem workspaceTranscriptMessage_eq_ok (hindex : Indexed PassEntry.passIndex 0 entries)
    (h : workspaceTranscriptMessage entries = .ok message) :
    message = asciiBytes "VERATHOS_FIXED_WORKSPACE_TRANSCRIPT_V1" ++
      counted passChunk (entries.map PassEntry.roots) := by
  simp only [workspaceTranscriptMessage, bind_eq_ok, pure_eq_ok] at h
  obtain ⟨passes, hpasses, rfl⟩ := h
  rw [flatten_eq_frame passEntryBytes_eq_ok hindex hpasses, counted, List.length_map, List.map_map]
  rfl

theorem workspaceTranscriptMessageV2_eq_ok {states : List StatePassEntry}
    (hindex : Indexed PassEntry.passIndex 0 entries)
    (hstates : Indexed StatePassEntry.passIndex 0 states)
    (h : workspaceTranscriptMessageV2 entries states = .ok message) :
    message = asciiBytes "VERATHOS_FIXED_WORKSPACE_TRANSCRIPT_V2" ++
      (counted passChunk (entries.map PassEntry.roots) ++
        counted stateChunk (states.map StatePassEntry.roots)) := by
  simp only [workspaceTranscriptMessageV2, bind_eq_ok, pure_eq_ok] at h
  obtain ⟨passes, hpasses, stateBytes, hstateBytes, rfl⟩ := h
  rw [flatten_eq_frame passEntryBytes_eq_ok hindex hpasses,
    flatten_eq_frame statePassBytes_eq_ok hstates hstateBytes, counted, counted, List.length_map,
    List.length_map, List.map_map, List.map_map, List.append_assoc]
  rfl

/-! ## Accepted chains -/

/-- What the checks establish of a payload. -/
structure Accepted (sha256 : Bytes → Digest) (expected : ExpectedRoots) (proof : Payload) :
    Prop where
  version : expected.proofProtocolVersion = 1 ∨ expected.proofProtocolVersion = 2
  indexed : Indexed PassEntry.passIndex 0 proof.rootChain.items
  passRoots : ∀ entry ∈ proof.rootChain.items, (decoded entry.passRoot).length = 32
  stateIndexed : expected.proofProtocolVersion = 2 →
    Indexed StatePassEntry.passIndex 0 proof.stateRootChain.items
  transcript : ∃ message,
    transcriptMessage expected.proofProtocolVersion proof = .ok message ∧
      Hex.toText (sha256 message).bytes = expected.transcriptRoot

theorem checkPassEntries_eq_ok {rounds : ℤ}
    (h : checkPassEntries sha256 rounds position entries = .ok u) :
    Indexed PassEntry.passIndex position entries ∧
      ∀ entry ∈ entries, (decoded entry.passRoot).length = 32 := by
  induction entries generalizing position with
  | nil => exact ⟨fun i entry hentry => by simp at hentry, by simp⟩
  | cons entry entries ih =>
    simp only [checkPassEntries, checkPassEntry, bind_eq_ok, rejectIf_eq_ok, require_eq_ok,
      exists_const, not_not] at h
    obtain ⟨⟨hindex, items, -, -, passRoot, hpassRoot, heq⟩, hrest⟩ := h
    obtain ⟨hindices, hlengths⟩ := ih hrest
    have hsome : entry.passIndex = some (position : ℤ) := by
      cases hvalue : entry.passIndex with
      | none =>
        rw [hvalue, Option.getD_none] at hindex
        omega
      | some index =>
        rw [hvalue, Option.getD_some] at hindex
        rw [hindex]
    refine ⟨Indexed.cons.mpr ⟨hsome, hindices⟩, List.forall_mem_cons.mpr ⟨?_, hlengths⟩⟩
    simp only [passRootFromRoundRoots, bind_eq_ok, pure_eq_ok] at hpassRoot
    obtain ⟨roots, -, rfl⟩ := hpassRoot
    rw [← heq, decoded_eq (rootBytes_toText _)]
    exact Digest.length_eq _

theorem checkStatePassEntries_eq_ok {rounds mixes : ℤ} {entries : List StatePassEntry}
    (h : checkStatePassEntries rounds mixes position entries = .ok u) :
    Indexed StatePassEntry.passIndex position entries := by
  induction entries generalizing position with
  | nil => exact fun i entry hentry => by simp at hentry
  | cons entry entries ih =>
    simp only [checkStatePassEntries, checkStatePassEntry, bind_eq_ok, rejectIf_eq_ok,
      require_eq_ok, exists_const, not_not] at h
    obtain ⟨-, ⟨hindex, -⟩, hrest⟩ := h
    refine Indexed.cons.mpr ⟨?_, ih hrest⟩
    cases hvalue : entry.passIndex with
    | none =>
      rw [hvalue, Option.getD_none] at hindex
      omega
    | some index =>
      rw [hvalue, Option.getD_some] at hindex
      rw [hindex]

variable {expected : ExpectedRoots} {proof : Payload}

theorem checkStateRootChain_eq_ok {p : WorkspaceParameters} {states : List StatePassEntry}
    (hversion : expected.proofProtocolVersion = 2)
    (h : checkStateRootChain expected p proof = .ok states) :
    states = proof.stateRootChain.items ∧ Indexed StatePassEntry.passIndex 0 states := by
  rw [checkStateRootChain] at h
  split_ifs at h
  · simp only [bind_eq_ok, rejectIf_eq_ok, require_eq_ok, pure_eq_ok, exists_const] at h
    obtain ⟨chain, hchain, -, _, hentries, rfl⟩ := h
    exact ⟨by rw [hchain, PyList.items], checkStatePassEntries_eq_ok hentries⟩
  · -- without transitions only a missing or empty chain is accepted
    cases hchain : proof.stateRootChain with
    | none =>
      rw [hchain] at h
      obtain rfl := Except.ok.inj h
      exact ⟨rfl, fun i entry hentry => by simp at hentry⟩
    | list entries =>
      cases entries with
      | nil =>
        rw [hchain] at h
        obtain rfl := Except.ok.inj h
        exact ⟨rfl, fun i entry hentry => by simp at hentry⟩
      | cons entry entries => simp [hchain] at h
    | other => simp [hchain] at h

theorem checkParameters_version {p : WorkspaceParameters}
    (h : checkParameters expected proof = .ok p) :
    expected.proofProtocolVersion = 1 ∨ expected.proofProtocolVersion = 2 := by
  simp only [checkParameters, bind_eq_ok, rejectIf_eq_ok, not_not] at h
  obtain ⟨-, hversion, -⟩ := h
  simpa using hversion

theorem checkTranscriptRoot_eq_ok {version : ℤ} {root : Check String}
    (hversion : expected.proofProtocolVersion = version) :
    checkTranscriptRoot version expected root = .ok u ↔
      ∃ value, root = .ok value ∧ value = expected.transcriptRoot := by
  simp only [checkTranscriptRoot, if_pos hversion, bind_eq_ok, rejectIf_eq_ok, not_not]

theorem accepted_of_verify {sampling openings : Payload → Check Unit}
    (h : verifyRootChains sha256 sampling openings expected proof = .ok ()) :
    Accepted sha256 expected proof := by
  simp only [verifyRootChains, bind_eq_ok, rejectIf_eq_ok, require_eq_ok, exists_const] at h
  obtain ⟨p, hp, rootChain, hroot, -, _, hentries, _, hfirst, -, -, _, -, states, hstates, _,
    hsecond, -⟩ := h
  obtain ⟨hindexed, hlengths⟩ := checkPassEntries_eq_ok hentries
  have hchain : proof.rootChain.items = rootChain := by rw [hroot, PyList.items]
  refine ⟨checkParameters_version hp, by rwa [hchain], by rwa [hchain], fun hversion => ?_, ?_⟩
  · obtain ⟨rfl, hstateIndexed⟩ := checkStateRootChain_eq_ok hversion hstates
    exact hstateIndexed
  · rcases checkParameters_version hp with hversion | hversion
    · obtain ⟨root, hmessage, heq⟩ := (checkTranscriptRoot_eq_ok hversion).mp hfirst
      simp only [workspaceTranscriptRoot, bind_eq_ok, pure_eq_ok] at hmessage
      obtain ⟨message, hmessage, rfl⟩ := hmessage
      exact ⟨message, by rw [transcriptMessage, if_pos hversion, hchain, hmessage], heq⟩
    · obtain ⟨rfl, -⟩ := checkStateRootChain_eq_ok hversion hstates
      obtain ⟨root, hmessage, heq⟩ := (checkTranscriptRoot_eq_ok hversion).mp hsecond
      simp only [workspaceTranscriptRootV2, bind_eq_ok, pure_eq_ok] at hmessage
      obtain ⟨message, hmessage, rfl⟩ := hmessage
      refine ⟨message, ?_, heq⟩
      rw [transcriptMessage, if_neg (by omega), hchain, hmessage]

/-! ## The transcript -/

/-- The lengths of the round roots, and those of the state roots in the second version, agree. -/
def SameLengths (version : ℤ) (proof proof' : Payload) : Prop :=
  proof.roundRoots.map (List.map List.length) = proof'.roundRoots.map (List.map List.length) ∧
    (version = 2 → proof.stateRoots.map (List.map (List.map List.length)) =
      proof'.stateRoots.map (List.map (List.map List.length)))

/-- The round roots, and the state roots in the second version, agree. -/
def SameRoots (version : ℤ) (proof proof' : Payload) : Prop :=
  proof.roundRoots = proof'.roundRoots ∧
    (version = 2 → proof.stateRoots = proof'.stateRoots)

theorem roundRoots_eq (proof : Payload) :
    proof.roundRoots = (proof.rootChain.items.map PassEntry.roots).map Prod.snd := by
  rw [Payload.roundRoots, List.map_map]
  rfl

/-- The pass roots have 32 bytes, so that the shapes of the passes are those of the round roots. -/
theorem Accepted.map_shape (h : Accepted sha256 expected proof) :
    (proof.rootChain.items.map PassEntry.roots).map (Prod.map List.length (List.map List.length)) =
      (proof.roundRoots.map (List.map List.length)).map fun lengths => (32, lengths) := by
  rw [roundRoots_eq, List.map_map, List.map_map, List.map_map, List.map_map]
  apply List.map_congr_left
  intro entry hentry
  exact Prod.ext (h.passRoots entry hentry) rfl

theorem Accepted.sameRoots {expected' : ExpectedRoots} {proof' : Payload}
    (h : Accepted sha256 expected proof) (h' : Accepted sha256 expected' proof')
    (hversion : expected.proofProtocolVersion = expected'.proofProtocolVersion)
    (hmessage : transcriptMessage expected.proofProtocolVersion proof = .ok message)
    (hmessage' : transcriptMessage expected.proofProtocolVersion proof' = .ok message)
    (hlengths : SameLengths expected.proofProtocolVersion proof proof') :
    SameRoots expected.proofProtocolVersion proof proof' := by
  obtain ⟨hrounds, hstates⟩ := hlengths
  have hshape := (h.map_shape.trans (congrArg _ hrounds)).trans h'.map_shape.symm
  rcases h.version with hone | htwo
  · -- the first transcript has the passes only
    rw [transcriptMessage, if_pos hone] at hmessage hmessage'
    have heq := (workspaceTranscriptMessage_eq_ok h.indexed hmessage).symm.trans
      (workspaceTranscriptMessage_eq_ok h'.indexed hmessage')
    have hpasses := fixedBy_passes.eq_of_write _ _ hshape (List.append_cancel_left heq)
    refine ⟨?_, fun htwo => by omega⟩
    rw [roundRoots_eq, roundRoots_eq, hpasses]
  · rw [transcriptMessage, if_neg (by omega)] at hmessage hmessage'
    have heq := (workspaceTranscriptMessageV2_eq_ok h.indexed (h.stateIndexed htwo)
      hmessage).symm.trans (workspaceTranscriptMessageV2_eq_ok h'.indexed
        (h'.stateIndexed (hversion ▸ htwo)) hmessage')
    obtain ⟨hpasses, hrest⟩ := fixedBy_passes.append_inj hshape (List.append_cancel_left heq)
    refine ⟨?_, fun _ => ?_⟩
    · rw [roundRoots_eq, roundRoots_eq, hpasses]
    · exact fixedBy_states.eq_of_write _ _ (hstates htwo) hrest

theorem toText_digest_inj {digest digest' : Digest}
    (h : Hex.toText digest.bytes = Hex.toText digest'.bytes) : digest = digest' := by
  have hbytes := (decoded_eq (rootBytes_toText digest.bytes)).symm.trans
    ((congrArg decoded h).trans (decoded_eq (rootBytes_toText digest'.bytes)))
  exact Digest.ext hbytes

/-! ## Payloads of one pass -/

/-- The bytes that the second transcript hashes for a payload of one pass. -/
def readingMessage (sha256 : Bytes → Digest) (roots : List Bytes) : Bytes :=
  asciiBytes "VERATHOS_FIXED_WORKSPACE_TRANSCRIPT_V2" ++
    (u64 1 ++ ((u64 0 ++ ((sha256 (passRootMessage 0 roots)).bytes ++
      (u64 roots.length ++ frame u64 0 roots))) ++ u64 0))

/-- The entry of a pass with these roots. -/
def readingEntry (sha256 : Bytes → Digest) (roots : List Bytes) : PassEntry where
  passIndex := some 0
  passRoot := Hex.toText (sha256 (passRootMessage 0 roots)).bytes
  roundRoots := .list (roots.map Hex.toText)

/-- A payload of one pass with three rounds. -/
def reading (sha256 : Bytes → Digest) (roots : List Bytes) : Payload where
  format := workspaceProofFormat
  parameters := some ⟨2, 2, 3, 1, 0, 0, 0, 1⟩
  rootChain := .list [readingEntry sha256 roots]
  stateRootChain := .none

/-- What the second protocol expects of a payload of one pass. -/
def readingExpected (sha256 : Bytes → Digest) (roots : List Bytes) : ExpectedRoots where
  transcriptRoot := Hex.toText (sha256 (readingMessage sha256 roots)).bytes
  pass0Root := Hex.toText (sha256 (passRootMessage 0 roots)).bytes
  finalRoot := Hex.toText (sha256 (passRootMessage 0 roots)).bytes
  passCount := 1
  expectedSpotChecks := some 1
  proofProtocolVersion := 2

theorem mapM_rootBytes_toText (roots : List Bytes) :
    (roots.map Hex.toText).mapM rootBytes = .ok roots := by
  rw [mapM_eq_ok, List.forall₂_map_left_iff, List.forall₂_same]
  exact fun root _ => rootBytes_toText root

theorem passEntryBytes_readingEntry (sha256 : Bytes → Digest) (roots : List Bytes) :
    passEntryBytes (readingEntry sha256 roots) =
      .ok (u64 0 ++ ((sha256 (passRootMessage 0 roots)).bytes ++
        (u64 roots.length ++ frame u64 0 roots))) := by
  simp only [passEntryBytes, readingEntry, bind_eq_ok, packU64_eq_ok, Option.getD_some, pure_eq_ok]
  refine ⟨u64 0, ⟨by decide, rfl⟩, _, rootBytes_toText _, _, rfl, roots, ?_, rfl⟩
  exact mapM_rootBytes_toText roots

theorem workspaceTranscriptMessageV2_reading (sha256 : Bytes → Digest) (roots : List Bytes) :
    workspaceTranscriptMessageV2 [readingEntry sha256 roots] [] =
      .ok (readingMessage sha256 roots) := by
  simp only [workspaceTranscriptMessageV2, bind_eq_ok, pure_eq_ok, List.mapM_cons, List.mapM_nil]
  refine ⟨_, ⟨_, passEntryBytes_readingEntry sha256 roots, [], rfl, rfl⟩, [], rfl, ?_⟩
  simp only [readingMessage, List.flatten_cons, List.flatten_nil, List.append_nil,
    List.append_assoc, List.length_cons, List.length_nil, Nat.zero_add]

theorem checkParameters_reading (sha256 : Bytes → Digest) (roots : List Bytes) :
    checkParameters (readingExpected sha256 roots) (reading sha256 roots) =
      .ok ⟨2, 2, 3, 1, 0, 0, 0, 1⟩ := by
  -- the checks read no text of the payload but its format
  have hchecked : checkParameters ⟨"", "", "", 1, some 1, 2⟩
      ⟨workspaceProofFormat, some ⟨2, 2, 3, 1, 0, 0, 0, 1⟩, .none, .none⟩ =
        .ok ⟨2, 2, 3, 1, 0, 0, 0, 1⟩ := by
    decide +kernel
  exact hchecked

theorem checkPassEntry_reading (sha256 : Bytes → Digest) {roots : List Bytes}
    (hrounds : roots.length = 3) :
    checkPassEntry sha256 3 0 (readingEntry sha256 roots) = .ok () := by
  simp only [checkPassEntry, bind_eq_ok, rejectIf_eq_ok, require_eq_ok, exists_const]
  refine ⟨by simp [readingEntry], roots.map Hex.toText, rfl, by simp [hrounds], _, ?_, not_not.mpr rfl⟩
  rw [passRootFromRoundRoots, mapM_rootBytes_toText]
  rfl

theorem transcriptMessage_reading (sha256 : Bytes → Digest) (roots : List Bytes) :
    transcriptMessage 2 (reading sha256 roots) = .ok (readingMessage sha256 roots) :=
  workspaceTranscriptMessageV2_reading sha256 roots

theorem roundRoots_reading (sha256 : Bytes → Digest) (roots : List Bytes) :
    (reading sha256 roots).roundRoots = [roots] := by
  have hroots := mapM_rootBytes_eq_ok (mapM_rootBytes_toText roots)
  exact congrArg (fun decodedRoots => [decodedRoots]) hroots.symm

theorem verify_reading (sha256 : Bytes → Digest) {roots : List Bytes} (hrounds : roots.length = 3) :
    verifyRootChains sha256 (fun _ => .ok ()) (fun _ => .ok ()) (readingExpected sha256 roots)
      (reading sha256 roots) = .ok () := by
  simp only [verifyRootChains, checkParameters_reading, bind_eq_ok, rejectIf_eq_ok, require_eq_ok,
    exists_const]
  refine ⟨_, rfl, _, rfl, by simp [readingExpected], (), ?_, (), rfl,
    by simp [readingExpected, readingEntry], by simp [readingExpected, readingEntry], trivial, [], rfl, (), ?_⟩
  · simp only [checkPassEntries, checkPassEntry_reading sha256 hrounds]
    rfl
  · refine ⟨(checkTranscriptRoot_eq_ok rfl).mpr ⟨_, ?_, rfl⟩, trivial⟩
    rw [workspaceTranscriptRootV2, workspaceTranscriptMessageV2_reading]
    rfl

/-- Thirty-two bytes. -/
def sampleRoot (byte : UInt8) : Bytes := List.replicate 32 byte

/-- Three roots, the last of which goes on with a counter, a root, a counter and a root. -/
def firstReading : List Bytes :=
  [sampleRoot 0, sampleRoot 1,
    sampleRoot 2 ++ (u64 1 ++ (sampleRoot 3 ++ (u64 2 ++ sampleRoot 4)))]

/-- The same bytes, cut so that the first root is the long one. -/
def secondReading : List Bytes :=
  [sampleRoot 0 ++ (u64 1 ++ (sampleRoot 1 ++ (u64 2 ++ sampleRoot 2))), sampleRoot 3,
    sampleRoot 4]

theorem frame_readings : frame u64 0 firstReading = frame u64 0 secondReading :=
  frame_ambiguous u64 0 _ _ _ _ _

theorem passRootMessage_readings :
    passRootMessage 0 firstReading = passRootMessage 0 secondReading := by
  rw [passRootMessage, passRootMessage, frame_readings]
  rfl

theorem readingMessage_readings (sha256 : Bytes → Digest) :
    readingMessage sha256 firstReading = readingMessage sha256 secondReading := by
  rw [readingMessage, readingMessage, passRootMessage_readings, frame_readings]
  rfl

theorem readingExpected_readings (sha256 : Bytes → Digest) :
    readingExpected sha256 firstReading = readingExpected sha256 secondReading := by
  rw [readingExpected, readingExpected, readingMessage_readings, passRootMessage_readings]

/-! ## What the transcript binds -/

/-- Two payloads whose chains are accepted for one transcript root have the same roots exactly when
their roots have the same lengths, unless their transcripts collide. -/
theorem capacityTranscript_binds (sha256 : Bytes → Digest)
    (sampling openings sampling' openings' : Payload → Check Unit)
    (expected expected' : ExpectedRoots) (proof proof' : Payload)
    (hversion : expected.proofProtocolVersion = expected'.proofProtocolVersion)
    (hroot : expected.transcriptRoot = expected'.transcriptRoot)
    (h : verifyRootChains sha256 sampling openings expected proof = .ok ())
    (h' : verifyRootChains sha256 sampling' openings' expected' proof' = .ok ()) :
    TranscriptCollision sha256 expected.proofProtocolVersion proof proof' ∨
      (SameRoots expected.proofProtocolVersion proof proof' ↔
        SameLengths expected.proofProtocolVersion proof proof') := by
  have haccepted := accepted_of_verify h
  have haccepted' := accepted_of_verify h'
  obtain ⟨message, hmessage, htext⟩ := haccepted.transcript
  obtain ⟨message', hmessage', htext'⟩ := haccepted'.transcript
  rw [← hversion] at hmessage'
  have hdigest : sha256 message = sha256 message' :=
    toText_digest_inj (by rw [htext, htext', hroot])
  by_cases hne : message = message'
  · refine .inr ⟨?_, ?_⟩
    · rintro ⟨hrounds, hstates⟩
      exact ⟨by rw [hrounds], fun htwo => by rw [hstates htwo]⟩
    · exact haccepted.sameRoots haccepted' hversion hmessage (hne ▸ hmessage')
  · exact .inl ⟨message, message', hmessage, hmessage', hne, hdigest⟩

theorem capacityTranscript_binds_readings :
    TranscriptCollision (fun _ => Digest.zero) 2 (reading (fun _ => Digest.zero) firstReading)
        (reading (fun _ => Digest.zero) secondReading) ∨
      (SameRoots 2 (reading (fun _ => Digest.zero) firstReading)
          (reading (fun _ => Digest.zero) secondReading) ↔
        SameLengths 2 (reading (fun _ => Digest.zero) firstReading)
          (reading (fun _ => Digest.zero) secondReading)) :=
  capacityTranscript_binds (fun _ => Digest.zero) (fun _ => .ok ()) (fun _ => .ok ())
    (fun _ => .ok ()) (fun _ => .ok ()) (readingExpected _ firstReading)
    (readingExpected _ secondReading) _ _ rfl (by rw [readingExpected_readings])
    (verify_reading _ rfl) (verify_reading _ rfl)

/-- Whatever the hash is, one transcript stands for two accepted payloads, whose roots of round one
have 32 bytes and differ: after the challenge either can be opened. -/
theorem transcript_has_two_readings :
    (∀ sha256 : Bytes → Digest,
      verifyRootChains sha256 (fun _ => .ok ()) (fun _ => .ok ())
          (readingExpected sha256 firstReading) (reading sha256 firstReading) = .ok () ∧
        verifyRootChains sha256 (fun _ => .ok ()) (fun _ => .ok ())
          (readingExpected sha256 firstReading) (reading sha256 secondReading) = .ok () ∧
        ¬ TranscriptCollision sha256 2 (reading sha256 firstReading)
          (reading sha256 secondReading) ∧
        ¬ SameRoots 2 (reading sha256 firstReading) (reading sha256 secondReading)) ∧
      firstReading[1]? = some (sampleRoot 1) ∧ secondReading[1]? = some (sampleRoot 3) := by
  refine ⟨fun sha256 => ⟨verify_reading sha256 rfl, ?_, ?_, ?_⟩, rfl, rfl⟩
  · rw [readingExpected_readings]
    exact verify_reading sha256 rfl
  · rintro ⟨message, message', hmessage, hmessage', hne, -⟩
    rw [transcriptMessage_reading] at hmessage hmessage'
    have heq := readingMessage_readings sha256
    rw [Except.ok.inj hmessage, Except.ok.inj hmessage'] at heq
    exact hne heq
  · rintro ⟨hrounds, -⟩
    rw [roundRoots_reading, roundRoots_reading] at hrounds
    exact absurd hrounds (by decide)

end Verathos.WorkspaceProof
