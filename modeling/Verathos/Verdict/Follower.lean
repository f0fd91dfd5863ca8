import Verathos.Lib.Method
import Verathos.Verdict.Codec

/-!
# The follower of the verdict feed

A translation of `VerdictSnapshotFollower` of `neurons/verdict_follower.py`: the checks of a
received snapshot, and the state that refuses replays.

* `returns_acceptRaw`, `atomic_acceptRaw`: what one call does to the follower;
* `Remembers`: the invariant, by which the follower holds the last snapshot of its history and the
  history never goes back;
* `Remembers.run`: every run keeps the invariant.
-/

namespace Verathos.Verdict

open Method

/-- What the follower uses of the platform. -/
structure Platform where
  lower : String → String
  ss58Decode : String → VerdictResult Bytes
  /-- `Keypair(ss58_address=address).verify(message, signature)`. -/
  keypairVerify : String → Bytes → Bytes → VerdictResult Bool
  /-- The nearest floating-point number, or the exception of a number out of range. -/
  round : ℚ → VerdictResult ℚ

/-- The attributes that the follower reads of the metagraph; a missing one is `none`. -/
structure Metagraph where
  hotkeys : Option (List String)
  validatorPermit : Option (List Bool)

def ownerHasValidatorPermit (ownerHotkeySs58 : String) (metagraph : Option Metagraph) : Bool :=
  (do
    let metagraph ← metagraph
    let hotkeys ← metagraph.hotkeys
    let uid ← hotkeys.idxOf? ownerHotkeySs58
    let permits ← metagraph.validatorPermit
    permits[uid]?).getD false

/-- The body of `verify_verdict_snapshot_v1`. -/
def checkSignature (p : Platform) (snapshot : VerdictSnapshotV1)
    (expectedAuditorHotkeySs58 : String) : VerdictResult Bool := do
  snapshot.validate p.lower true
  let expectedKey ← p.ss58Decode expectedAuditorHotkeySs58
  if snapshot.auditorHotkey ≠ expectedKey then
    return false
  else
    let message ← snapshot.signingMessage p.lower
    p.keypairVerify expectedAuditorHotkeySs58 message snapshot.signature

/-- `verify_verdict_snapshot_v1`, in which every exception counts as a failed check. -/
def verifyVerdictSnapshotV1 (p : Platform) (snapshot : VerdictSnapshotV1)
    (expectedAuditorHotkeySs58 : String) : Bool :=
  match checkSignature p snapshot expectedAuditorHotkeySs58 with
  | .ok valid => valid
  | .error _ => false

structure AcceptedVerdictSnapshot where
  snapshot : VerdictSnapshotV1
  raw : Bytes
deriving DecidableEq

/-- The version that orders snapshots: the epoch, then the timestamp. -/
def VerdictSnapshotV1.version (snapshot : VerdictSnapshotV1) : ℤ ×ₗ ℤ :=
  toLex (snapshot.epochNumber, snapshot.generatedAt)

/-- The fields of a `VerdictSnapshotFollower`. -/
structure VerdictSnapshotFollower where
  lastVersion : Option (ℤ ×ₗ ℤ) := none
  lastRaw : Bytes := []
  current : Option AcceptedVerdictSnapshot := none
deriving DecidableEq

/-- The arguments of `accept_raw`. The conversions of the numbers may raise. -/
structure AcceptCall where
  raw : Bytes
  expectedOwnerHotkeySs58 : String
  metagraph : Option Metagraph
  closingEpoch : VerdictResult ℤ
  /-- `float(epoch_seconds)`; a value that is not a number counts as zero, as in `max`. -/
  epochSeconds : VerdictResult ℚ
  now : VerdictResult ℤ

/-- `int(x)`. -/
def intOf (x : ℚ) : ℤ := if 0 ≤ x then ⌊x⌋ else ⌈x⌉

/-- `int(now_s - max_age)`, by floating-point operations. -/
def staleBefore (p : Platform) (epochSeconds : ℚ) (nowS : ℤ) : VerdictResult ℤ := do
  let maxAge ← p.round (max 1 (2 * epochSeconds))
  let now ← p.round nowS
  let oldest ← p.round (now - maxAge)
  return intOf oldest

/-- The `except` clause around `from_bytes`. -/
def encodingRejected {α : Type} : VerdictResult α → VerdictResult α
  | .error (.valueError message) =>
    .error (.unavailable ("snapshot encoding rejected: " ++ message))
  | result => result

def acceptRaw (p : Platform) (args : AcceptCall) :
    EStateM VerdictError VerdictSnapshotFollower VerdictSnapshotV1 := do
  let snapshot ← call (encodingRejected (VerdictSnapshotV1.fromBytes p.lower args.raw))
  check (ownerHasValidatorPermit args.expectedOwnerHotkeySs58 args.metagraph = false)
    (.unavailable "configured owner lacks a validator permit in the local metagraph")
  check (verifyVerdictSnapshotV1 p snapshot args.expectedOwnerHotkeySs58 = false)
    (.unavailable "snapshot signature or configured owner identity is invalid")
  let epoch ← call args.closingEpoch
  check (snapshot.epochNumber ∉ [epoch, max 0 (epoch - 1)])
    (.unavailable "snapshot epoch is outside the closing/current decision window")
  let nowS ← call args.now
  let epochSeconds ← call args.epochSeconds
  let oldest ← call (staleBefore p epochSeconds nowS)
  check (snapshot.generatedAt < oldest) (.unavailable "snapshot is stale")
  check (snapshot.generatedAt > nowS + 300)
    (.unavailable "snapshot timestamp is in the future")
  let follower ← get
  check (∃ last ∈ follower.lastVersion, snapshot.version < last)
    (.unavailable "snapshot is older than the last accepted owner decision")
  check (follower.lastVersion = some snapshot.version ∧ follower.lastRaw ≠ [] ∧
      args.raw ≠ follower.lastRaw)
    (.unavailable "snapshot conflicts with the last accepted owner decision")
  modify fun _ =>
    { lastVersion := some snapshot.version
      lastRaw := args.raw
      current := some ⟨snapshot, args.raw⟩ }
  return snapshot

def clearCurrent (follower : VerdictSnapshotFollower) : VerdictSnapshotFollower :=
  { follower with current := none }

/-! ## Runs -/

/-- A call on the follower. -/
inductive Action where
  | acceptRaw (args : AcceptCall)
  | clearCurrent

/-- The follower after a call, however the call ends. -/
def next (p : Platform) (follower : VerdictSnapshotFollower) : Action → VerdictSnapshotFollower
  | .acceptRaw args => after (acceptRaw p args) follower
  | .clearCurrent => clearCurrent follower

/-- What a call accepts. -/
def acceptedBy (p : Platform) (follower : VerdictSnapshotFollower) :
    Action → Option AcceptedVerdictSnapshot
  | .acceptRaw args =>
    match acceptRaw p args follower with
    | .ok snapshot _ => some ⟨snapshot, args.raw⟩
    | .error _ _ => none
  | .clearCurrent => none

/-- The follower after the calls of a run. -/
def run (p : Platform) (follower : VerdictSnapshotFollower) (actions : List Action) :
    VerdictSnapshotFollower :=
  actions.foldl (next p) follower

/-- What the calls of a run accept, in order. -/
def history (p : Platform) : VerdictSnapshotFollower → List Action → List AcceptedVerdictSnapshot
  | _, [] => []
  | follower, action :: actions =>
    (acceptedBy p follower action).toList ++ history p (next p follower action) actions

variable {p : Platform} {args : AcceptCall} {s s' : VerdictSnapshotFollower}

/-! ## One call -/

@[simp]
theorem encodingRejected_eq_ok {α : Type} {result : VerdictResult α} {a : α} :
    encodingRejected result = .ok a ↔ result = .ok a := by
  rcases result with (_ | _ | _) | _ <;> simp [encodingRejected]

/-- A successor of an accepted snapshot: its version is no lower, and an equal version has equal
bytes. -/
def Follows (prior item : AcceptedVerdictSnapshot) : Prop :=
  prior.snapshot.version ≤ item.snapshot.version ∧
    (prior.snapshot.version = item.snapshot.version → prior.raw = item.raw)

theorem Follows.trans {a b c : AcceptedVerdictSnapshot} (hab : Follows a b) (hbc : Follows b c) :
    Follows a c := by
  refine ⟨hab.1.trans hbc.1, fun heq => ?_⟩
  -- An equal version at both ends leaves no room between them.
  have hb : a.snapshot.version = b.snapshot.version :=
    le_antisymm hab.1 (hbc.1.trans heq.ge)
  rw [hab.2 hb, hbc.2 (hb.symm.trans heq)]

instance : IsTrans AcceptedVerdictSnapshot Follows := ⟨fun _ _ _ => Follows.trans⟩

theorem returns_acceptRaw {snapshot : VerdictSnapshotV1}
    (h : Returns (acceptRaw p args) s snapshot s') :
    VerdictSnapshotV1.fromBytes p.lower args.raw = .ok snapshot ∧
      (∀ last ∈ s.lastVersion, last ≤ snapshot.version) ∧
      (s.lastVersion = some snapshot.version → s.lastRaw ≠ [] → args.raw = s.lastRaw) ∧
      s' = ⟨some snapshot.version, args.raw, some ⟨snapshot, args.raw⟩⟩ := by
  simp only [acceptRaw, returns_bind, returns_call, returns_check, returns_get, returns_modify,
    returns_pure, encodingRejected_eq_ok] at h
  obtain ⟨a, _, ⟨hdecode, rfl⟩, _, _, ⟨-, rfl⟩, _, _, ⟨-, rfl⟩, _, _, ⟨-, rfl⟩, _, _, ⟨-, rfl⟩, _, _,
    ⟨-, rfl⟩, _, _, ⟨-, rfl⟩, _, _, ⟨-, rfl⟩, _, _, ⟨-, rfl⟩, _, _, ⟨-, rfl⟩, _, _, ⟨rfl, rfl⟩, _, _,
    ⟨hfloor, rfl⟩, _, _, ⟨hconflict, rfl⟩, _, _, hstate, rfl, rfl⟩ := h
  refine ⟨hdecode, fun last hlast => not_lt.mp fun hlt => hfloor ⟨last, hlast, hlt⟩, ?_, hstate⟩
  intro hversion hraw
  by_contra hne
  exact hconflict ⟨hversion, hraw, hne⟩

theorem atomic_acceptRaw (p : Platform) (args : AcceptCall) (s : VerdictSnapshotFollower) :
    Atomic (acceptRaw p args) s := by
  unfold acceptRaw
  -- Every statement before the last two only reads.
  refine .bind (readsOnly_call _) fun snapshot _ => ?_
  refine .bind readsOnly_check fun _ _ => ?_
  refine .bind readsOnly_check fun _ _ => ?_
  refine .bind (readsOnly_call _) fun epoch _ => ?_
  refine .bind readsOnly_check fun _ _ => ?_
  refine .bind (readsOnly_call _) fun nowS _ => ?_
  refine .bind (readsOnly_call _) fun epochSeconds _ => ?_
  refine .bind (readsOnly_call _) fun oldest _ => ?_
  refine .bind readsOnly_check fun _ _ => ?_
  refine .bind readsOnly_check fun _ _ => ?_
  refine .bind readsOnly_get fun follower _ => ?_
  refine .bind readsOnly_check fun _ _ => ?_
  refine .bind readsOnly_check fun _ _ => ?_
  intro e s' h
  simp only [raises_bind, raises_modify, raises_pure, and_false, exists_false, or_self] at h

theorem ne_nil_of_fromBytes {lower : String → String} {raw : Bytes} {snapshot : VerdictSnapshotV1}
    (h : VerdictSnapshotV1.fromBytes lower raw = .ok snapshot) : raw ≠ [] := by
  rintro rfl
  simp only [VerdictSnapshotV1.fromBytes, bind_eq_ok, refuseIf_eq_ok, List.length_nil] at h
  obtain ⟨-, hlength, -⟩ := h
  exact hlength (by norm_num)

/-! ## Runs -/

/-- The follower holds the last snapshot of its history, which never goes back. -/
structure Remembers (p : Platform) (follower : VerdictSnapshotFollower)
    (accepted : List AcceptedVerdictSnapshot) : Prop where
  lastVersion : follower.lastVersion = accepted.getLast?.map fun item => item.snapshot.version
  lastRaw : ∀ item ∈ accepted.getLast?, follower.lastRaw = item.raw
  decodes : ∀ item ∈ accepted, VerdictSnapshotV1.fromBytes p.lower item.raw = .ok item.snapshot
  /-- Every accepted snapshot follows the one that was accepted before it. -/
  chain : accepted.IsChain Follows

variable {accepted : List AcceptedVerdictSnapshot}

theorem Remembers.next (h : Remembers p s accepted) (action : Action) :
    Remembers p (next p s action) (accepted ++ (acceptedBy p s action).toList) := by
  cases action with
  | clearCurrent =>
    change Remembers p (clearCurrent s) (accepted ++ [])
    rw [List.append_nil]
    exact ⟨h.lastVersion, h.lastRaw, h.decodes, h.chain⟩
  | acceptRaw args =>
    rcases returns_or_raises (acceptRaw p args) s with ⟨snapshot, s', hcall⟩ | ⟨e, s', hcall⟩
    · have hnext : Verdict.next p s (.acceptRaw args) = s' := after_of_returns hcall
      have hby : acceptedBy p s (.acceptRaw args) = some ⟨snapshot, args.raw⟩ := by
        unfold Returns at hcall
        rw [acceptedBy, hcall]
      obtain ⟨hdecode, hfloor, hconflict, rfl⟩ := returns_acceptRaw hcall
      rw [hnext, hby, Option.toList_some]
      refine ⟨?_, ?_, ?_, List.isChain_append.mpr ⟨h.chain, .singleton _, ?_⟩⟩
      · rw [List.getLast?_concat, Option.map_some]
      · rw [List.getLast?_concat]
        rintro _ ⟨⟩
        rfl
      · intro item hitem
        rcases List.mem_append.mp hitem with hitem | hitem
        · exact h.decodes item hitem
        · obtain rfl := List.mem_singleton.mp hitem
          exact hdecode
      · -- The floor stands for the last accepted snapshot.
        rintro last hlast _ ⟨⟩
        have hversion : s.lastVersion = some last.snapshot.version := by
          rw [h.lastVersion, Option.mem_def.mp hlast, Option.map_some]
        refine ⟨hfloor _ hversion, fun heq => ?_⟩
        have hraw := h.lastRaw last hlast
        have hne := ne_nil_of_fromBytes (h.decodes last (List.mem_of_getLast? hlast))
        rw [← hraw] at hne
        rw [← hraw, hconflict (hversion.trans (congrArg some heq)) hne]
    · have hnext : Verdict.next p s (.acceptRaw args) = s := by
        rw [Verdict.next, after_of_raises hcall, atomic_acceptRaw p args s e s' hcall]
      have hby : acceptedBy p s (.acceptRaw args) = none := by
        unfold Raises at hcall
        rw [acceptedBy, hcall]
      rw [hnext, hby, Option.toList_none, List.append_nil]
      exact h

theorem Remembers.run (h : Remembers p s accepted) (actions : List Action) :
    Remembers p (run p s actions) (accepted ++ history p s actions) := by
  induction actions generalizing s accepted with
  | nil => rwa [history, List.append_nil]
  | cons action actions ih =>
    rw [history, ← List.append_assoc]
    exact ih (h.next action)

theorem remembers_run (p : Platform) (actions : List Action) :
    Remembers p (run p {} actions) (history p {} actions) := by
  have hinitial : Remembers p {} [] := ⟨rfl, by simp, by simp, .nil⟩
  exact hinitial.run actions

/-- The codec is exact in both directions, and over every run of the follower the accepted
snapshots never go back, a call that raises changes nothing, and clearing the current snapshot
keeps the replay floor, which is always the last accepted snapshot. -/
theorem verdict_codec_exact_and_never_back (p : Platform) :
    (∀ snapshot : VerdictSnapshotV1, snapshot.validate p.lower true = .ok () →
      SnapshotFits snapshot → ∃ raw, snapshot.toBytes p.lower = .ok raw ∧
        VerdictSnapshotV1.fromBytes p.lower raw = .ok snapshot) ∧
    (∀ raw snapshot, VerdictSnapshotV1.fromBytes p.lower raw = .ok snapshot →
      snapshot.toBytes p.lower = .ok raw) ∧
    (∀ actions, (history p {} actions).Pairwise fun prior item =>
      prior.snapshot.version ≤ item.snapshot.version ∧
        (prior.snapshot.version = item.snapshot.version → prior.raw = item.raw)) ∧
    (∀ actions,
      (run p {} actions).lastVersion =
        (history p {} actions).getLast?.map fun item => item.snapshot.version) ∧
    (∀ args follower e follower', Raises (acceptRaw p args) follower e follower' →
      follower' = follower) ∧
    ∀ follower, (clearCurrent follower).lastVersion = follower.lastVersion ∧
      (clearCurrent follower).lastRaw = follower.lastRaw := by
  refine ⟨fun snapshot hvalid hfits => ?_, fun raw snapshot => fromBytes_eq_ok_iff.mp,
    fun actions => ?_, fun actions => (remembers_run p actions).lastVersion,
    fun args follower => atomic_acceptRaw p args follower, fun follower => ⟨rfl, rfl⟩⟩
  · have hwritten := toBytes_eq_ok.mpr ⟨hvalid, hfits, rfl⟩
    exact ⟨_, hwritten, fromBytes_eq_ok_iff.mpr hwritten⟩
  · have hpairwise : (history p {} actions).Pairwise Follows :=
      List.isChain_iff_pairwise.mp (remembers_run p actions).chain
    exact hpairwise

/-- A platform with a signature scheme that accepts a fixed signature. -/
def samplePlatform : Platform where
  lower := String.toLower
  ss58Decode _ := .ok (List.replicate 32 7)
  keypairVerify _ _ signature := .ok (signature = List.replicate 64 1)
  round x := .ok x

/-- A snapshot of one endpoint. -/
def sampleSnapshot : VerdictSnapshotV1 where
  auditorHotkey := List.replicate 32 7
  epochNumber := 5
  generatedAt := 1000
  entries := [⟨"0xa", 0, "5F", "m", 1, 4, false, true⟩]
  signature := List.replicate 64 1

/-- The snapshot of one endpoint survives the round trip. -/
theorem verdict_codec_exact_and_never_back_sample :
    ∃ raw, sampleSnapshot.toBytes samplePlatform.lower = .ok raw ∧
      VerdictSnapshotV1.fromBytes samplePlatform.lower raw = .ok sampleSnapshot :=
  (verdict_codec_exact_and_never_back samplePlatform).1 sampleSnapshot (by decide +kernel)
    ⟨by decide, by decide, by decide⟩

end Verathos.Verdict
