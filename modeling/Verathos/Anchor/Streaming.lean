import Verathos.Anchor.Defs

/-!
# The streaming accumulator

`StreamingExecutionAnchorV3` keeps one hash per set bit of the number of rows. Rows are appended one
by one, or by a block whose frontier a native routine has computed. The peaks are the frontier of the
row hashes after every sequence of updates, and `root` closes them to the root of the batch tree
(`streaming_root`).
-/

namespace Verathos.Anchor

/-! ## The class -/

/-- `StreamingExecutionAnchorV3`. -/
structure StreamingExecutionAnchor where
  stageId : StageId
  rowWidth : ℕ
  count : ℕ
  peaks : List (Option Digest)

namespace StreamingExecutionAnchor

/-- The constructor. -/
def new (stageId : Bytes) (rowWidth : ℕ) : Result StreamingExecutionAnchor := do
  let stageId ← stage stageId
  raiseIf (¬ (0 < rowWidth ∧ rowWidth < 2 ^ 24))
    (.proofV3Error "execution anchor row width is malformed")
  return ⟨stageId, rowWidth, 0, []⟩

variable (hashNode : Digest → Digest → Digest) (s : StreamingExecutionAnchor)

def appendLeafHash (leafHash : Digest) : Result StreamingExecutionAnchor := do
  raiseIf (s.count ≥ 2 ^ 32 - 1) (.proofV3Error "execution anchor leaf hash is malformed")
  return { s with peaks := OddMerkle.carry hashNode s.peaks leafHash, count := s.count + 1 }

def replaceFrontierAfterAppend (addedRows : ℕ) (frontier : List (Option Digest)) :
    Result StreamingExecutionAnchor := do
  raiseIf (s.count + addedRows ≥ 2 ^ 32 ∨ frontier.length ≠ 32)
    (.proofV3Error "execution anchor native frontier update is malformed")
  let updatedCount := s.count + addedRows
  raiseIf (∃ entry ∈ frontier.zipIdx, updatedCount.testBit entry.2 ≠ entry.1.isSome)
    (.proofV3Error "execution anchor native frontier occupancy is inconsistent")
  return { s with count := updatedCount, peaks := frontier.take updatedCount.size }

/-- The occupied levels with their peaks. -/
def occupied (peaks : List (Option Digest)) : List (ℕ × Digest) :=
  peaks.zipIdx.filterMap fun (peak, level) => peak.map (level, ·)

/-- The loop of `root`: the carry is combined with itself up to the level of the next peak. -/
def rootLoop : ℕ → Digest → List (ℕ × Digest) → Result Digest
  | _, carry, [] => .ok carry
  | level, carry, (nextLevel, peak) :: rest => do
    let carry := (fun c => hashNode c c)^[nextLevel - level] carry
    raiseIf (max level nextLevel ≠ nextLevel)
      (.proofV3Error "execution anchor accumulator is inconsistent")
    rootLoop (nextLevel + 1) (hashNode peak carry) rest

def root : Result Digest := do
  raiseIf (s.count = 0) (.proofV3Error "execution anchor has no rows")
  match occupied s.peaks with
  | [] => .error (.builtin "IndexError")
  | (level, carry) :: rest => rootLoop hashNode level carry rest

end StreamingExecutionAnchor

/-! ## Updates -/

/-- An update: one row hash, or a block of row hashes with the frontier after it. -/
inductive Update where
  | append (leafHash : Digest)
  | replace (leafHashes : List Digest) (frontier : List (Option Digest))

/-- The row hashes of an update. -/
def Update.leaves : Update → List Digest
  | .append leafHash => [leafHash]
  | .replace leafHashes _ => leafHashes

section Updates

variable (hashNode : Digest → Digest → Digest)

/-- Apply an update. -/
def Update.apply (s : StreamingExecutionAnchor) : Update → Result StreamingExecutionAnchor
  | .append leafHash => s.appendLeafHash hashNode leafHash
  | .replace leafHashes frontier => s.replaceFrontierAfterAppend leafHashes.length frontier

/-- Apply updates in order. -/
def applyUpdates (s : StreamingExecutionAnchor) : List Update → Result StreamingExecutionAnchor
  | [] => .ok s
  | update :: rest => do
    let s ← update.apply hashNode s
    applyUpdates s rest

/-- Every block of the updates comes with the true frontier of the sequence that it extends: at each
of the 32 levels, the root of the perfect subtree there, if the number of rows has that bit. -/
def TrueFrontiers : List Digest → List Update → Prop
  | _, [] => True
  | before, update :: rest =>
    (∀ leafHashes frontier, update = .replace leafHashes frontier →
      frontier = (List.range 32).map (OddMerkle.peak hashNode (before ++ leafHashes))) ∧
    TrueFrontiers (before ++ update.leaves) rest

end Updates

/-! ## The peaks are the frontier -/

section Frontier

variable {hashNode : Digest → Digest → Digest}

/-- The accumulator holds a sequence of row hashes. -/
structure StreamingExecutionAnchor.Holds (hashNode : Digest → Digest → Digest)
    (s : StreamingExecutionAnchor) (leaves : List Digest) : Prop where
  count : s.count = leaves.length
  peaks : s.peaks = OddMerkle.frontier hashNode leaves

theorem take_peaks {leaves : List Digest} (hlt : leaves.length < 2 ^ 32) :
    ((List.range 32).map (OddMerkle.peak hashNode leaves)).take leaves.length.size =
      OddMerkle.frontier hashNode leaves := by
  have hsize : leaves.length.size ≤ 32 := Nat.size_le.mpr hlt
  apply List.ext_getElem?
  intro level
  rw [List.getElem?_take]
  by_cases hlevel : level < leaves.length.size
  · have hfrontier : level < (OddMerkle.frontier hashNode leaves).length := by
      rw [OddMerkle.length_frontier]
      exact hlevel
    have hgetD := OddMerkle.getD_frontier hashNode leaves level
    rw [List.getD_eq_getElem?_getD, List.getElem?_eq_getElem hfrontier, Option.getD_some] at hgetD
    rw [if_pos hlevel, List.getElem?_map, List.getElem?_range (by omega), Option.map_some,
      List.getElem?_eq_getElem hfrontier, hgetD]
  · rw [if_neg hlevel, List.getElem?_eq_none]
    rw [OddMerkle.length_frontier]
    omega

theorem StreamingExecutionAnchor.Holds.apply {s : StreamingExecutionAnchor} {leaves : List Digest}
    (h : s.Holds hashNode leaves) {update : Update}
    (hfrontier : ∀ leafHashes frontier, update = .replace leafHashes frontier →
      frontier = (List.range 32).map (OddMerkle.peak hashNode (leaves ++ leafHashes)))
    (hlt : (leaves ++ update.leaves).length < 2 ^ 32) :
    ∃ s', update.apply hashNode s = .ok s' ∧ s'.Holds hashNode (leaves ++ update.leaves) := by
  cases update with
  | append leafHash =>
    rw [Update.leaves, List.length_append, List.length_singleton] at hlt
    have hcount : ¬ s.count ≥ 2 ^ 32 - 1 := by
      rw [h.count]
      omega
    refine ⟨_, bind_eq_ok.mpr ⟨(), raiseIf_eq_ok.mpr hcount, rfl⟩, ?_, ?_⟩
    · simp [Update.leaves, h.count]
    · rw [Update.leaves, h.peaks, OddMerkle.carry_frontier]
  | replace leafHashes frontier =>
    obtain rfl := hfrontier leafHashes frontier rfl
    rw [Update.leaves] at hlt ⊢
    have hcount : s.count + leafHashes.length = (leaves ++ leafHashes).length := by
      rw [h.count, List.length_append]
    have hshape : ¬ (s.count + leafHashes.length ≥ 2 ^ 32 ∨
        ((List.range 32).map (OddMerkle.peak hashNode (leaves ++ leafHashes))).length ≠ 32) := by
      rw [hcount, List.length_map, List.length_range]
      omega
    -- a peak is there exactly at a set bit
    have hoccupied : ¬ ∃ entry ∈ ((List.range 32).map
        (OddMerkle.peak hashNode (leaves ++ leafHashes))).zipIdx,
        (s.count + leafHashes.length).testBit entry.2 ≠ entry.1.isSome := by
      rintro ⟨⟨peak, level⟩, hentry, hne⟩
      rw [List.mem_zipIdx_iff_getElem?, List.getElem?_map, Option.map_eq_some_iff] at hentry
      obtain ⟨k, hk, rfl⟩ := hentry
      obtain ⟨hlevel, hk⟩ := List.getElem?_eq_some_iff.mp hk
      rw [List.getElem_range] at hk
      obtain rfl : level = k := hk
      rw [hcount, ← OddMerkle.getD_frontier, OddMerkle.isSome_getD_frontier] at hne
      exact hne rfl
    refine ⟨_, bind_eq_ok.mpr ⟨(), raiseIf_eq_ok.mpr hshape,
      bind_eq_ok.mpr ⟨(), raiseIf_eq_ok.mpr hoccupied, rfl⟩⟩, hcount, ?_⟩
    dsimp only
    rw [hcount, take_peaks hlt]

theorem StreamingExecutionAnchor.Holds.applyUpdates {updates : List Update}
    {s : StreamingExecutionAnchor} {leaves : List Digest} (h : s.Holds hashNode leaves)
    (htrue : TrueFrontiers hashNode leaves updates)
    (hlt : (leaves ++ updates.flatMap Update.leaves).length < 2 ^ 32) :
    ∃ s', Anchor.applyUpdates hashNode s updates = .ok s' ∧
      s'.Holds hashNode (leaves ++ updates.flatMap Update.leaves) := by
  induction updates generalizing s leaves with
  | nil =>
    refine ⟨s, rfl, ?_⟩
    simpa using h
  | cons update rest ih =>
    rw [List.flatMap_cons, ← List.append_assoc] at hlt ⊢
    obtain ⟨s₁, hs₁, h₁⟩ := h.apply htrue.1 (by
      rw [List.length_append] at hlt
      omega)
    obtain ⟨s₂, hs₂, h₂⟩ := ih h₁ htrue.2 hlt
    exact ⟨s₂, bind_eq_ok.mpr ⟨s₁, hs₁, hs₂⟩, h₂⟩

end Frontier

/-! ## The root -/

section Root

variable {hashNode : Digest → Digest → Digest}

/-- The occupied levels of a part of the peaks that starts at a level. -/
def occupiedFrom (level : ℕ) (peaks : List (Option Digest)) : List (ℕ × Digest) :=
  (peaks.zipIdx level).filterMap fun (peak, level) => peak.map (level, ·)

theorem occupiedFrom_none (level : ℕ) (peaks : List (Option Digest)) :
    occupiedFrom level (none :: peaks) = occupiedFrom (level + 1) peaks := rfl

theorem occupiedFrom_some (level : ℕ) (peak : Digest) (peaks : List (Option Digest)) :
    occupiedFrom level (some peak :: peaks) = (level, peak) :: occupiedFrom (level + 1) peaks := rfl

theorem rootLoop_occupiedFrom {peaks : List (Option Digest)} {top : Digest}
    (htop : peaks.getLast? = some (some top)) {start level : ℕ} (hle : start ≤ level)
    (carry : Digest) :
    StreamingExecutionAnchor.rootLoop hashNode start carry (occupiedFrom level peaks) =
      .ok (OddMerkle.climb hashNode ((fun c => hashNode c c)^[level - start] carry) peaks) := by
  induction peaks generalizing start level carry with
  | nil => exact absurd htop (by simp)
  | cons peak rest ih =>
    cases peak with
    | none =>
      have hrest : rest.getLast? = some (some top) := by
        rw [List.getLast?_cons] at htop
        cases hlast : rest.getLast? with
        | none => simp [hlast] at htop
        | some last => simpa [hlast] using htop
      have hsucc : level + 1 - start = level - start + 1 := by omega
      rw [occupiedFrom_none, ih hrest (by omega), hsucc, Function.iterate_succ_apply',
        OddMerkle.climb]
    | some peak =>
      have hmax : ¬ max start level ≠ level := by
        rw [max_eq_right hle]
        simp
      have hstep : StreamingExecutionAnchor.rootLoop hashNode start carry
          (occupiedFrom level (some peak :: rest)) =
          StreamingExecutionAnchor.rootLoop hashNode (level + 1)
            (hashNode peak ((fun c => hashNode c c)^[level - start] carry))
            (occupiedFrom (level + 1) rest) := by
        rw [occupiedFrom_some, StreamingExecutionAnchor.rootLoop, raiseIf, if_neg hmax]
        rfl
      rw [hstep, OddMerkle.climb]
      cases rest with
      | nil => rfl
      | cons next rest =>
        have hrest : (next :: rest).getLast? = some (some top) := by
          rw [List.getLast?_cons_cons] at htop
          exact htop
        rw [ih hrest le_rfl, Nat.sub_self]
        rfl

theorem close_occupiedFrom {peaks : List (Option Digest)} {top : Digest}
    (htop : peaks.getLast? = some (some top)) (level : ℕ) :
    ∃ start carry rest result, occupiedFrom level peaks = (start, carry) :: rest ∧
      StreamingExecutionAnchor.rootLoop hashNode start carry rest = .ok result ∧
      OddMerkle.close hashNode peaks = some result := by
  induction peaks generalizing level with
  | nil => exact absurd htop (by simp)
  | cons peak tail ih =>
    cases peak with
    | none =>
      have htail : tail.getLast? = some (some top) := by
        rw [List.getLast?_cons] at htop
        cases hlast : tail.getLast? with
        | none => simp [hlast] at htop
        | some last => simpa [hlast] using htop
      exact ih htail (level + 1)
    | some peak =>
      refine ⟨level, peak, occupiedFrom (level + 1) tail, _, rfl, ?_, rfl⟩
      cases tail with
      | nil => rfl
      | cons next tail =>
        have htail : (next :: tail).getLast? = some (some top) := by
          rw [List.getLast?_cons_cons] at htop
          exact htop
        have hone : level + 1 - level = 1 := by omega
        rw [rootLoop_occupiedFrom htail (Nat.le_add_right level 1), hone, if_neg (by simp)]
        rfl

theorem StreamingExecutionAnchor.Holds.root {s : StreamingExecutionAnchor} {leaves : List Digest}
    (h : s.Holds hashNode leaves) (hne : leaves ≠ []) :
    ∃ digest, s.root hashNode = .ok digest ∧ rowLeafFromChunks hashNode leaves = .ok digest := by
  obtain ⟨top, htop⟩ := OddMerkle.getLast?_frontier hashNode hne
  obtain ⟨start, carry, rest, result, hoccupied, hloop, hclose⟩ := close_occupiedFrom htop 0
  rw [OddMerkle.close_frontier] at hclose
  have hcount : ¬ s.count = 0 := by
    rw [h.count]
    exact (List.length_pos_iff.mpr hne).ne'
  refine ⟨result, ?_, ?_⟩
  · refine bind_eq_ok.mpr ⟨(), raiseIf_eq_ok.mpr hcount, ?_⟩
    have hpeaks : occupied s.peaks = (start, carry) :: rest := by
      rw [h.peaks]
      exact hoccupied
    rw [hpeaks]
    exact hloop
  · refine bind_eq_ok.mpr ⟨(), raiseIf_eq_ok.mpr hne, ?_⟩
    rw [getItem_eq_ok, ← List.head?_eq_getElem?]
    exact hclose

end Root

/-! ## The result -/

theorem Update.count_apply {hashNode : Digest → Digest → Digest} {s s' : StreamingExecutionAnchor}
    {update : Update} (h : update.apply hashNode s = .ok s') :
    s'.count = s.count + update.leaves.length ∧ s'.count < 2 ^ 32 := by
  cases update with
  | append leafHash =>
    simp only [Update.apply, StreamingExecutionAnchor.appendLeafHash, bind_eq_ok, raiseIf_eq_ok,
      pure_eq_ok] at h
    obtain ⟨-, hcount, rfl⟩ := h
    refine ⟨rfl, ?_⟩
    dsimp only
    omega
  | replace leafHashes frontier =>
    simp only [Update.apply, StreamingExecutionAnchor.replaceFrontierAfterAppend, bind_eq_ok,
      raiseIf_eq_ok, pure_eq_ok] at h
    obtain ⟨-, hshape, -, -, rfl⟩ := h
    refine ⟨rfl, ?_⟩
    dsimp only
    omega

theorem count_applyUpdates {hashNode : Digest → Digest → Digest} {updates : List Update}
    {s s' : StreamingExecutionAnchor} (hlt : s.count < 2 ^ 32)
    (h : applyUpdates hashNode s updates = .ok s') :
    s'.count = s.count + (updates.flatMap Update.leaves).length ∧ s'.count < 2 ^ 32 := by
  induction updates generalizing s with
  | nil =>
    obtain rfl : s = s' := Except.ok.inj h
    exact ⟨by simp, hlt⟩
  | cons update rest ih =>
    obtain ⟨s₁, hs₁, hrest⟩ := bind_eq_ok.mp h
    obtain ⟨hcount₁, hlt₁⟩ := Update.count_apply hs₁
    obtain ⟨hcount, hlt⟩ := ih hlt₁ hrest
    refine ⟨?_, hlt⟩
    rw [hcount, hcount₁, List.flatMap_cons, List.length_append]
    omega

theorem StreamingExecutionAnchor.holds_new (hashNode : Digest → Digest → Digest) {stageId : Bytes}
    {rowWidth : ℕ} {s₀ : StreamingExecutionAnchor}
    (hnew : StreamingExecutionAnchor.new stageId rowWidth = .ok s₀) : s₀.Holds hashNode [] := by
  simp only [StreamingExecutionAnchor.new, bind_eq_ok, pure_eq_ok] at hnew
  obtain ⟨stageId, -, -, -, rfl⟩ := hnew
  exact ⟨rfl, (OddMerkle.frontier_nil hashNode).symm⟩

/-- Streaming equals batch: for every nonempty sequence of row hashes, in whatever way it is split
into single appends and blocks with their true frontier, the accumulator accepts all updates exactly
when the number of rows fits into 32 bits. It then counts the rows, has peaks exactly at the set bits
of their number, and its root is the odd-duplicate root of the whole sequence. -/
theorem streaming_root (hashNode : Digest → Digest → Digest) {stageId : Bytes} {rowWidth : ℕ}
    {s₀ : StreamingExecutionAnchor} (hnew : StreamingExecutionAnchor.new stageId rowWidth = .ok s₀)
    {updates : List Update} (htrue : TrueFrontiers hashNode [] updates)
    (hne : updates.flatMap Update.leaves ≠ []) :
    ((∃ s, applyUpdates hashNode s₀ updates = .ok s) ↔
      (updates.flatMap Update.leaves).length < 2 ^ 32) ∧
    ∀ s, applyUpdates hashNode s₀ updates = .ok s →
      s.count = (updates.flatMap Update.leaves).length ∧
      s.peaks.length = s.count.size ∧
      (∀ level, (s.peaks.getD level none).isSome = s.count.testBit level) ∧
      ∃ digest, s.root hashNode = .ok digest ∧
        rowLeafFromChunks hashNode (updates.flatMap Update.leaves) = .ok digest := by
  have hempty := StreamingExecutionAnchor.holds_new hashNode hnew
  have hbound : ∀ s, applyUpdates hashNode s₀ updates = .ok s →
      (updates.flatMap Update.leaves).length < 2 ^ 32 := by
    intro s hs
    have hzero : s₀.count = 0 := hempty.count
    obtain ⟨hcount, hlt⟩ := count_applyUpdates (by omega) hs
    omega
  refine ⟨⟨fun ⟨s, hs⟩ => hbound s hs, fun hlt => ?_⟩, fun s hs => ?_⟩
  · obtain ⟨s, hs, -⟩ := hempty.applyUpdates htrue (by simpa using hlt)
    exact ⟨s, hs⟩
  · obtain ⟨s', hs', hholds⟩ := hempty.applyUpdates htrue (by simpa using hbound s hs)
    obtain rfl : s = s' := Except.ok.inj (hs.symm.trans hs')
    rw [List.nil_append] at hholds
    obtain ⟨digest, hroot, hbatch⟩ := hholds.root hne
    refine ⟨hholds.count, ?_, fun level => ?_, digest, hroot, hbatch⟩
    · rw [hholds.peaks, hholds.count, OddMerkle.length_frontier]
    · rw [hholds.peaks, hholds.count, OddMerkle.isSome_getD_frontier]

/-- An append and then a block of two rows, with a node hash that keeps its left argument. -/
theorem streaming_root_append_replace :
    ∃ s digest, applyUpdates (fun left _ => left) ⟨⟨[0x61], rfl⟩, 1, 0, []⟩
        [.append Digest.zero, .replace [Digest.zero, Digest.zero]
          ((List.range 32).map (OddMerkle.peak (fun left _ => left)
            [Digest.zero, Digest.zero, Digest.zero]))] = .ok s ∧
      s.count = 3 ∧ s.root (fun left _ => left) = .ok digest ∧
      rowLeafFromChunks (fun left _ => left) [Digest.zero, Digest.zero, Digest.zero] =
        .ok digest := by
  have h := @streaming_root (fun left _ => left) [0x61] 1 ⟨⟨[0x61], rfl⟩, 1, 0, []⟩ rfl
    [.append Digest.zero, .replace [Digest.zero, Digest.zero]
      ((List.range 32).map (OddMerkle.peak (fun left _ => left)
        [Digest.zero, Digest.zero, Digest.zero]))]
    ⟨nofun, fun _ _ heq => by cases heq; rfl, trivial⟩ (by simp [Update.leaves])
  obtain ⟨s, hs⟩ := h.1.mpr (by decide)
  obtain ⟨hcount, -, -, digest, hroot, hbatch⟩ := h.2 s hs
  exact ⟨s, digest, hs, hcount, hroot, hbatch⟩

end Verathos.Anchor
