import Verathos.Batched.Defs
import Verathos.Pcs.Sumcheck

/-!
# The lockstep round loop

Every column of a batch runs its own sumcheck; the columns only share the challenges. `LaneRun`
says what a number of rounds does to one column: nothing before it joins, and from then on its
round polynomials form a chain (`Pcs.roundChain`) on the shared challenges. `roundLoop_sound` and
`exists_roundLoop` say that the loop is this, column by column.
-/

namespace Verathos.Batched

open Pcs

/-- The effect of `remaining` rounds, from `roundIndex` on, on one column. -/
structure LaneRun (roundIndex remaining : ℕ) (challenges : List ℤ) (before after : Lane × Running) :
    Prop where
  lane : after.1 = before.1
  localRound : after.2.localRound =
    before.2.localRound + (remaining - (before.1.join - roundIndex))
  /-- The rounds that it takes form a chain on the challenges of these rounds. -/
  chain : roundChain ((before.1.wire.roundPolynomials.drop before.2.localRound).take
      (remaining - (before.1.join - roundIndex)))
    (challenges.drop (before.1.join - roundIndex)) before.2.value = .ok after.2.value

theorem laneRun_zero (roundIndex : ℕ) (x : Lane × Running) : LaneRun roundIndex 0 [] x x := by
  refine ⟨rfl, by rw [Nat.zero_sub, Nat.add_zero], ?_⟩
  rw [Nat.zero_sub, List.take_zero, List.drop_nil]
  rfl

theorem LaneRun.eq_of_zero {roundIndex : ℕ} {x y : Lane × Running} (h : LaneRun roundIndex 0 [] x y) :
    y = x := by
  have hchain := h.chain
  have hround := h.localRound
  rw [Nat.zero_sub, List.take_zero, List.drop_nil] at hchain
  rw [Nat.zero_sub, Nat.add_zero] at hround
  obtain ⟨lane, value, localRound⟩ := y
  obtain ⟨lane', value', localRound'⟩ := x
  obtain rfl : lane = lane' := h.lane
  obtain rfl : localRound = localRound' := hround
  obtain rfl : value' = value := by simpa [roundChain] using hchain
  rfl

section Step

variable {roundIndex remaining : ℕ} {challenge : ℤ} {challenges : List ℤ}

theorem joined_step {lane : Lane} {running : Running} (hjoin : lane.join ≤ roundIndex)
    {y : Lane × Running} :
    (∃ blob, checkRound roundIndex (lane, running) = .ok blob ∧
        foldRound roundIndex challenge (lane, running) = .ok y) ↔
      ∃ g : Round, lane.wire.roundPolynomials[running.localRound]? = some g ∧ g.IsCanonical ∧
        (g.1 + g.2.1) % goldilocksModulus = running.value ∧
        y = (lane, ⟨recombine g challenge, running.localRound + 1⟩) := by
  have hnot : ¬ lane.join > roundIndex := by omega
  simp only [checkRound, foldRound, if_neg hnot]
  cases hget : lane.wire.roundPolynomials[running.localRound]? with
  | none => simp
  | some g =>
    obtain ⟨g0, g1, g2⟩ := g
    simp only [bind_eq_ok, field_eq_ok, raiseIf_eq_ok, pure_eq_ok, getItem_eq_ok, hget, not_not,
      Option.some.injEq, exists_eq_left', Round.IsCanonical, deg2At]
    constructor
    · rintro ⟨blob, ⟨_, ⟨h0, rfl⟩, _, ⟨h1, rfl⟩, _, ⟨h2, rfl⟩, -, hsum, rfl⟩, _, ⟨-, rfl⟩, _, ⟨-, rfl⟩,
        _, ⟨-, rfl⟩, rfl⟩
      exact ⟨⟨h0, h1, h2⟩, hsum, rfl⟩
    · rintro ⟨⟨h0, h1, h2⟩, hsum, rfl⟩
      exact ⟨_, ⟨_, ⟨h0, rfl⟩, _, ⟨h1, rfl⟩, _, ⟨h2, rfl⟩, (), hsum, rfl⟩, _, ⟨h0, rfl⟩, _, ⟨h1, rfl⟩,
        _, ⟨h2, rfl⟩, rfl⟩

theorem laneRun_succ {x z : Lane × Running} :
    LaneRun roundIndex (remaining + 1) (challenge :: challenges) x z ↔
      ∃ blob y, checkRound roundIndex x = .ok blob ∧ foldRound roundIndex challenge x = .ok y ∧
        LaneRun (roundIndex + 1) remaining challenges y z := by
  obtain ⟨lane, running⟩ := x
  by_cases hjoin : lane.join > roundIndex
  · -- the column waits
    have hskip : lane.join - roundIndex = lane.join - (roundIndex + 1) + 1 := by omega
    have hiff : LaneRun roundIndex (remaining + 1) (challenge :: challenges) (lane, running) z ↔
        LaneRun (roundIndex + 1) remaining challenges (lane, running) z := by
      constructor
      · rintro ⟨h, h', h''⟩
        rw [hskip, Nat.add_sub_add_right] at h' h''
        exact ⟨h, h', h''⟩
      · rintro ⟨h, h', h''⟩
        refine ⟨h, ?_, ?_⟩
        · rw [hskip, Nat.add_sub_add_right]
          exact h'
        · rw [hskip, Nat.add_sub_add_right]
          exact h''
    rw [hiff]
    simp only [checkRound, foldRound, if_pos hjoin, Except.ok.injEq, exists_and_left,
      exists_eq_left']
  · -- the column takes the round
    have hle : lane.join ≤ roundIndex := by omega
    have hskip : lane.join - roundIndex = 0 := by omega
    have hskip' : lane.join - (roundIndex + 1) = 0 := by omega
    constructor
    · rintro ⟨h, h', h''⟩
      rw [hskip, Nat.sub_zero] at h' h''
      dsimp only at h h' h''
      cases hget : lane.wire.roundPolynomials[running.localRound]? with
      | none =>
        rw [List.drop_eq_nil_of_le (List.getElem?_eq_none_iff.mp hget), List.take_nil] at h''
        cases h''
      | some g =>
        obtain ⟨hlt, rfl⟩ := List.getElem?_eq_some_iff.mp hget
        rw [List.drop_eq_getElem_cons hlt, List.take_succ_cons, List.drop_zero] at h''
        obtain ⟨hg, hsum, hrest⟩ := roundChain_cons_eq_ok.mp h''
        obtain ⟨blob, hblob, hy⟩ :=
          (@joined_step roundIndex challenge lane running hle _).mpr ⟨_, hget, hg, hsum, rfl⟩
        refine ⟨blob, _, hblob, hy, h, ?_, ?_⟩
        · rw [hskip', Nat.sub_zero]
          dsimp only
          omega
        · rw [hskip', Nat.sub_zero]
          exact hrest
    · rintro ⟨blob, y, hblob, hy, h, h', h''⟩
      obtain ⟨g, hget, hg, hsum, rfl⟩ := (joined_step hle).mp ⟨blob, hblob, hy⟩
      rw [hskip', Nat.sub_zero] at h' h''
      refine ⟨h, ?_, ?_⟩
      · rw [hskip, Nat.sub_zero]
        dsimp only at h' ⊢
        omega
      · obtain ⟨hlt, rfl⟩ := List.getElem?_eq_some_iff.mp hget
        rw [hskip, Nat.sub_zero, List.drop_eq_getElem_cons hlt, List.take_succ_cons, List.drop_zero]
        exact roundChain_cons_eq_ok.mpr ⟨hg, hsum, h''⟩

theorem forall₂_laneRun_succ {xs zs : List (Lane × Running)} :
    List.Forall₂ (LaneRun roundIndex (remaining + 1) (challenge :: challenges)) xs zs ↔
      ∃ blobs ys, xs.mapM (checkRound roundIndex) = .ok blobs ∧
        xs.mapM (foldRound roundIndex challenge) = .ok ys ∧
        List.Forall₂ (LaneRun (roundIndex + 1) remaining challenges) ys zs := by
  simp only [mapM_eq_ok]
  induction xs generalizing zs with
  | nil => simp
  | cons x xs ih =>
    simp only [List.forall₂_cons_left_iff, ih, laneRun_succ]
    constructor
    · rintro ⟨z, zs, ⟨blob, y, hblob, hy, hrun⟩, ⟨blobs, ys, hblobs, hys, hruns⟩, rfl⟩
      exact ⟨_, _, ⟨blob, blobs, hblob, hblobs, rfl⟩, ⟨y, ys, hy, hys, rfl⟩, .cons hrun hruns⟩
    · rintro ⟨_, _, ⟨blob, blobs, hblob, hblobs, rfl⟩, ⟨y, ys, hy, hys, rfl⟩, hall⟩
      obtain ⟨z, zs, hrun, hruns, rfl⟩ := List.forall₂_cons_left_iff.mp hall
      exact ⟨z, zs, ⟨blob, y, hblob, hy, hrun⟩, ⟨blobs, ys, hblobs, hys, hruns⟩, rfl⟩

end Step

section Loop

variable {sha256 : Bytes → Digest} {derive : Derive} {layerCommitments : List Bytes}

theorem roundLoop_sound {remaining roundIndex : ℕ} {xs zs : List (Lane × Running)}
    {transcript transcript' : Digest} {challenges : List ℤ}
    (h : roundLoop sha256 derive layerCommitments remaining roundIndex xs transcript =
      .ok (zs, challenges, transcript')) :
    challenges.length = remaining ∧
      List.Forall₂ (LaneRun roundIndex remaining challenges) xs zs := by
  induction remaining generalizing roundIndex xs transcript challenges with
  | zero =>
    simp only [roundLoop, Except.ok.injEq, Prod.mk.injEq] at h
    obtain ⟨rfl, rfl, -⟩ := h
    exact ⟨rfl, List.forall₂_same.mpr fun x _ => laneRun_zero roundIndex x⟩
  | succ remaining ih =>
    simp only [roundLoop, bind_eq_ok, pure_eq_ok, Prod.mk.injEq] at h
    obtain ⟨blobs, hblobs, challenge, _, ys, hys, _, _, _, _, ⟨_, challenges', _⟩, hrest, rfl, rfl,
      rfl⟩ := h
    obtain ⟨hlength, hruns⟩ := ih hrest
    exact ⟨by rw [List.length_cons, hlength],
      forall₂_laneRun_succ.mpr ⟨blobs, ys, hblobs, hys, hruns⟩⟩

theorem exists_roundLoop {remaining roundIndex : ℕ} {xs zs : List (Lane × Running)}
    (transcript : Digest) {challenges : List ℤ} (hlength : challenges.length = remaining)
    (hderive : ∀ k c, challenges[k]? = some c → ∀ t, derive t batchFoldLabel (roundIndex + k) = .ok c)
    (hcommitments : ∀ k < remaining, ∃ root : Digest,
      layerCommitments[roundIndex + k]? = some root.bytes)
    (hruns : List.Forall₂ (LaneRun roundIndex remaining challenges) xs zs) :
    ∃ transcript', roundLoop sha256 derive layerCommitments remaining roundIndex xs transcript =
      .ok (zs, challenges, transcript') := by
  induction remaining generalizing roundIndex xs transcript challenges with
  | zero =>
    obtain rfl := List.length_eq_zero_iff.mp hlength
    obtain rfl : zs = xs := by
      induction hruns with
      | nil => rfl
      | cons hrun _ ih => rw [hrun.eq_of_zero, ih]
    exact ⟨transcript, rfl⟩
  | succ remaining ih =>
    obtain ⟨challenge, challenges, rfl⟩ := List.exists_cons_of_length_eq_add_one hlength
    obtain ⟨blobs, ys, hblobs, hys, hrest⟩ := forall₂_laneRun_succ.mp hruns
    obtain ⟨root, hroot⟩ := hcommitments 0 (by omega)
    set next := sha256 ((sha256 (transcript.bytes ++ blobs.flatten)).bytes ++ root.bytes)
    obtain ⟨transcript', hloop⟩ := ih next (Nat.succ.inj hlength)
      (fun k c hk t => by
        have h := hderive (k + 1) c (by simpa using hk) t
        rwa [← Nat.add_assoc, Nat.add_right_comm] at h)
      (fun k hk => by
        have h := hcommitments (k + 1) (by omega)
        rwa [← Nat.add_assoc, Nat.add_right_comm] at h)
      hrest
    refine ⟨transcript', ?_⟩
    simp only [roundLoop, bind_eq_ok, pure_eq_ok, getItem_eq_ok, fixedBytes32_eq_ok]
    exact ⟨blobs, hblobs, challenge, hderive 0 challenge rfl _, ys, hys, _, hroot, root, rfl, _, hloop,
      rfl⟩

/-- Two columns that the rounds do not tell apart: they may differ in their openings. -/
structure SameRounds (x y : Lane × Running) : Prop where
  join : x.1.join = y.1.join
  rounds : x.1.wire.roundPolynomials = y.1.wire.roundPolynomials
  running : x.2 = y.2

theorem SameRounds.checkRound_eq {x y : Lane × Running} (h : SameRounds x y) (roundIndex : ℕ) :
    checkRound roundIndex x = checkRound roundIndex y := by
  obtain ⟨lane, running⟩ := x
  obtain ⟨lane', running'⟩ := y
  obtain ⟨hjoin, hrounds, hrunning⟩ := h
  dsimp only at hjoin hrounds hrunning
  rw [checkRound, checkRound, hjoin, hrounds, hrunning]

theorem SameRounds.foldRound {x y x' y' : Lane × Running} (h : SameRounds x y) {roundIndex : ℕ}
    {challenge : ℤ} (hx : foldRound roundIndex challenge x = .ok x')
    (hy : foldRound roundIndex challenge y = .ok y') : SameRounds x' y' := by
  obtain ⟨lane, running⟩ := x
  obtain ⟨lane', running'⟩ := y
  obtain ⟨hjoin, hrounds, hrunning⟩ := h
  dsimp only at hjoin hrounds hrunning
  rw [Batched.foldRound, hjoin, hrounds, hrunning] at hx
  rw [Batched.foldRound] at hy
  split_ifs at hx hy with hwaits
  · obtain rfl := Except.ok.inj hx
    obtain rfl := Except.ok.inj hy
    exact ⟨hjoin, hrounds, rfl⟩
  · simp only [bind_eq_ok, field_eq_ok, pure_eq_ok] at hx hy
    obtain ⟨g, hg, _, ⟨-, rfl⟩, _, ⟨-, rfl⟩, _, ⟨-, rfl⟩, rfl⟩ := hx
    obtain ⟨g', hg', _, ⟨-, rfl⟩, _, ⟨-, rfl⟩, _, ⟨-, rfl⟩, rfl⟩ := hy
    obtain rfl := Except.ok.inj (hg.symm.trans hg')
    exact ⟨hjoin, hrounds, rfl⟩

/-- The transcript depends on the columns only through what the rounds see. -/
theorem transcript_congr {remaining roundIndex : ℕ} {xs ys xs' ys' : List (Lane × Running)}
    {transcript transcript₁ transcript₂ : Digest} {challenges challenges' : List ℤ}
    (h : List.Forall₂ SameRounds xs ys)
    (hxs : roundLoop sha256 derive layerCommitments remaining roundIndex xs transcript =
      .ok (xs', challenges, transcript₁))
    (hys : roundLoop sha256 derive layerCommitments remaining roundIndex ys transcript =
      .ok (ys', challenges', transcript₂)) : transcript₁ = transcript₂ := by
  induction remaining generalizing roundIndex xs ys xs' ys' transcript challenges challenges' with
  | zero =>
    simp only [roundLoop, Except.ok.injEq, Prod.mk.injEq] at hxs hys
    rw [← hxs.2.2, ← hys.2.2]
  | succ remaining ih =>
    simp only [roundLoop, bind_eq_ok, pure_eq_ok, Prod.mk.injEq] at hxs hys
    obtain ⟨blobs, hblobs, c, hc, nexts, hnexts, _, hroot, root, hdigest, ⟨_, _, _⟩, hrest, -, -,
      rfl⟩ := hxs
    obtain ⟨blobs', hblobs', c', hc', nexts', hnexts', _, hroot', root', hdigest', ⟨_, _, _⟩, hrest', -,
      -, rfl⟩ := hys
    -- both runs absorb the same bytes, so they derive the same challenge
    have hsame : xs.mapM (checkRound roundIndex) = ys.mapM (checkRound roundIndex) := by
      clear hblobs hblobs' hnexts hnexts'
      induction h with
      | nil => rfl
      | cons hxy _ ih => rw [List.mapM_cons, List.mapM_cons, hxy.checkRound_eq, ih]
    obtain rfl := Except.ok.inj (hblobs.symm.trans (hsame.trans hblobs'))
    obtain rfl := Except.ok.inj (hc.symm.trans hc')
    obtain rfl := Except.ok.inj (hroot.symm.trans hroot')
    obtain rfl := Except.ok.inj (hdigest.symm.trans hdigest')
    refine ih ?_ hrest hrest'
    rw [mapM_eq_ok] at hnexts hnexts'
    clear hblobs hblobs' hsame hrest hrest'
    induction h generalizing nexts nexts' with
    | nil =>
      obtain rfl := List.forall₂_nil_left_iff.mp hnexts
      obtain rfl := List.forall₂_nil_left_iff.mp hnexts'
      exact .nil
    | cons hxy _ ih =>
      obtain ⟨x', xs', hx', hxs', rfl⟩ := List.forall₂_cons_left_iff.mp hnexts
      obtain ⟨y', ys', hy', hys', rfl⟩ := List.forall₂_cons_left_iff.mp hnexts'
      exact .cons (hxy.foldRound hx' hy') (ih _ hxs' _ hys')

end Loop

end Verathos.Batched
