import Verathos.Logup.Defs
import Verathos.Pcs.Refinement

/-!
# The compiled replay against the Python replays

The three replays run one loop over rows that they read in three ways: the compiled loop takes an
entry modulo `2 ^ 64` and rejects what is not below `p`, `_replay_claims` reduces modulo `p`, and
`_replay_rounds` insists on canonical entries. `replayLoop4_eq_ok` says that the compiled loop is
the Python loop under the first reading, so that two replays agree wherever their readings do
(`replayLoop_congr`).

The readings agree on canonical entries and on no larger class of entries:
`replays_agree_iff`.
-/

namespace Verathos.Logup

open Merkle ModularPower Pcs Pcs.Compiled

/-! ## Recombination -/

local instance atLeastTwo : Nat.AtLeastTwo 2 := ⟨le_rfl⟩

/-- The cubic through four values at 0, 1, 2 and 3. -/
def cubic (e0 e1 e2 e3 z : F) : F :=
  e0 * ((z - 1) * (z - 2) * (z - 3)) * -6⁻¹ + e1 * (z * (z - 2) * (z - 3)) * 2⁻¹ +
    (e2 * (z * (z - 1) * (z - 3)) * -2⁻¹ + e3 * (z * (z - 1) * (z - 2)) * 6⁻¹)

variable {evals : Row}

theorem lagrange0123_eq_ok {z value : ℤ} :
    lagrange0123 evals z = .ok value ↔
      Canonical value ∧ (value : F) = cubic evals.e0 evals.e1 evals.e2 evals.e3 z := by
  obtain ⟨inv6, hinv6, hinv6'⟩ : ∃ inverse, goldilocksInv 6 = .ok inverse ∧
      (inverse : F) = ((6 : ℤ) : F)⁻¹ := goldilocksInv_spec (by decide) (by decide)
  obtain ⟨inv2, hinv2, hinv2'⟩ : ∃ inverse, goldilocksInv 2 = .ok inverse ∧
      (inverse : F) = ((2 : ℤ) : F)⁻¹ := goldilocksInv_spec (by decide) (by decide)
  simp only [lagrange0123, bind_eq_ok, pure_eq_ok, hinv6, hinv2, Except.ok.injEq,
    exists_eq_left']
  rw [emod_eq_iff, and_congr_right_iff]
  intro _
  simp only [Int.cast_add, Int.cast_mul, Int.cast_sub, intCast_emod, Int.cast_one, Int.cast_ofNat,
    Int.cast_natCast, ZMod.natCast_self, hinv6', hinv2', zero_sub]
  rw [cubic, ← add_assoc]

theorem recombine4_spec {g0 g1 g2 g3 z : ℕ} (h0 : IsWord g0) (h1 : IsWord g1) (h2 : IsWord g2)
    (h3 : IsWord g3) (hz : IsWord z) :
    IsWord (Compiled.recombine4 g0 g1 g2 g3 z) ∧
      lagrange0123 ⟨g0, g1, g2, g3⟩ z = .ok (Compiled.recombine4 g0 g1 g2 g3 z : ℤ) := by
  have hsmall : ∀ k < 7, IsWord k := fun k hk => by
    rw [IsWord, glP_eq]
    omega
  obtain ⟨hinv6, hinv6'⟩ := glcPow_spec (hsmall 6 (by norm_num)).lt (glP - 2)
  have hsix : ((6 : ℕ) : F) ≠ 0 := by
    rw [Ne, ZMod.natCast_eq_zero_iff]
    exact Nat.not_dvd_of_pos_of_lt (by norm_num) (hsmall 6 (by norm_num))
  have hfermat : ((6 : ℕ) : F) ^ (glP - 2) = ((6 : ℕ) : F)⁻¹ := by
    rw [glP]
    exact pow_modulus_sub_two hsix
  rw [hfermat] at hinv6'
  obtain ⟨hneg6, hneg6'⟩ := glcSub_spec (hsmall 0 (by norm_num)) hinv6
  obtain ⟨hneg2, hneg2'⟩ := glcSub_spec (hsmall 0 (by norm_num)) isWord_glcInv2
  obtain ⟨hzm1, hzm1'⟩ := glcSub_spec hz (hsmall 1 (by norm_num))
  obtain ⟨hzm2, hzm2'⟩ := glcSub_spec hz (hsmall 2 (by norm_num))
  obtain ⟨hzm3, hzm3'⟩ := glcSub_spec hz (hsmall 3 (by norm_num))
  -- one term: a round value, its three linear factors and its constant
  have hterm : ∀ {g a b c k : ℕ}, IsWord g → IsWord a → IsWord b → IsWord c → IsWord k →
      IsWord (glcMul (glcMul g (glcMul (glcMul a b) c)) k) ∧
        (glcMul (glcMul g (glcMul (glcMul a b) c)) k : F) = g * (a * b * c) * k := by
    intro g a b c k hg ha hb hc hk
    obtain ⟨hab, hab'⟩ := glcMul_spec ha.lt hb.lt
    obtain ⟨habc, habc'⟩ := glcMul_spec hab.lt hc.lt
    obtain ⟨hgabc, hgabc'⟩ := glcMul_spec hg.lt habc.lt
    obtain ⟨hall, hall'⟩ := glcMul_spec hgabc.lt hk.lt
    exact ⟨hall, by rw [hall', hgabc', habc', hab']⟩
  obtain ⟨ht0, ht0'⟩ := hterm h0 hzm1 hzm2 hzm3 hneg6
  obtain ⟨ht1, ht1'⟩ := hterm h1 hz hzm2 hzm3 isWord_glcInv2
  obtain ⟨ht2, ht2'⟩ := hterm h2 hz hzm1 hzm3 hneg2
  obtain ⟨ht3, ht3'⟩ := hterm h3 hz hzm1 hzm2 hinv6
  obtain ⟨hs01, hs01'⟩ := glcAdd_spec ht0 ht1
  obtain ⟨hs23, hs23'⟩ := glcAdd_spec ht2 ht3
  obtain ⟨hsum, hsum'⟩ := glcAdd_spec hs01 hs23
  refine ⟨hsum, lagrange0123_eq_ok.mpr ⟨hsum.canonical, ?_⟩⟩
  rw [Int.cast_natCast, Compiled.recombine4, hsum', hs01', hs23', ht0', ht1', ht2', ht3', hneg6',
    hneg2', hzm1', hzm2', hzm3', hinv6', glcInv2_cast, intCast_inv2]
  simp [cubic]

/-! ## Readings -/

/-- Both calls return the same value, or both raise. -/
def SameOutcome {α : Type} (x y : Result α) : Prop := ∀ value, x = .ok value ↔ y = .ok value

/-- A row as the compiled loop reads it: entries modulo `2 ^ 64`, rejected unless below `p`. -/
def readWords (row : Row) : Result Row := do
  raiseIf (∃ v ∈ row.toList, ¬ Canonical (v % 2 ^ 64))
    (.proofV3VerificationError "round replay fails")
  return row.map (· % 2 ^ 64)

variable {row : Row}

theorem readWords_eq_ok :
    readWords row = .ok evals ↔
      (∀ v ∈ row.toList, Canonical (v % 2 ^ 64)) ∧ evals = row.map (· % 2 ^ 64) := by
  simp only [readWords, bind_eq_ok, raiseIf_eq_ok, pure_eq_ok, not_exists, not_and, not_not]
  constructor
  · rintro ⟨-, h, rfl⟩
    exact ⟨h, rfl⟩
  · rintro ⟨h, rfl⟩
    exact ⟨(), h, rfl⟩

theorem readField_eq_ok :
    readField row = .ok evals ↔ (∀ v ∈ row.toList, Canonical v) ∧ evals = row := by
  simp only [readField, bind_eq_ok, field_eq_ok, pure_eq_ok, Row.toList, List.forall_mem_cons]
  constructor
  · rintro ⟨_, ⟨h0, rfl⟩, _, ⟨h1, rfl⟩, _, ⟨h2, rfl⟩, _, ⟨h3, rfl⟩, rfl⟩
    exact ⟨⟨h0, h1, h2, h3, by simp⟩, rfl⟩
  · rintro ⟨⟨h0, h1, h2, h3, -⟩, rfl⟩
    exact ⟨_, ⟨h0, rfl⟩, _, ⟨h1, rfl⟩, _, ⟨h2, rfl⟩, _, ⟨h3, rfl⟩, rfl⟩

theorem readReduced_eq_ok :
    readReduced row = .ok evals ↔ evals = row.map (· % goldilocksModulus) := by
  rw [readReduced, Except.ok.injEq, eq_comm]

/-! ## The loops -/

section Loop

variable {sha256 : Bytes → Digest} {absorbed label : Bytes} {mismatch : PyError}

/-- One round of the Python loop. -/
theorem replayLoop_cons_eq_ok {read : Row → Result Row} {row : Row} {rows : List Row} {count : ℕ}
    {running : ℤ} {transcript : Digest} {value : List ℤ × ℤ × Digest} :
    replayLoop sha256 read absorbed label mismatch (row :: rows) count running transcript =
        .ok value ↔
      ∃ evals, read row = .ok evals ∧ (evals.e0 + evals.e1) % goldilocksModulus = running ∧
        ∃ challenge, derive sha256 (sha256 (transcript.bytes ++ absorbed ++ evals.bytes)) label
            (count + 1) = .ok challenge ∧
          ∃ running', lagrange0123 evals challenge = .ok running' ∧
            ∃ rest, replayLoop sha256 read absorbed label mismatch rows (count + 1) running'
                (sha256 (transcript.bytes ++ absorbed ++ evals.bytes)) = .ok rest ∧
              value = (challenge :: rest.1, rest.2) := by
  simp only [replayLoop, bind_eq_ok, raiseIf_eq_ok, pure_eq_ok, not_not]
  constructor
  · rintro ⟨evals, hread, -, hsum, challenge, hchallenge, running', hrunning, rest, hrest, rfl⟩
    exact ⟨evals, hread, hsum, challenge, hchallenge, running', hrunning, rest, hrest, rfl⟩
  · rintro ⟨evals, hread, hsum, challenge, hchallenge, running', hrunning, rest, hrest, rfl⟩
    exact ⟨evals, hread, (), hsum, challenge, hchallenge, running', hrunning, rest, hrest, rfl⟩

theorem replayLoop_congr {read read' : Row → Result Row} {mismatch' : PyError} {rows : List Row}
    (h : ∀ row ∈ rows, SameOutcome (read row) (read' row)) (count : ℕ) (running : ℤ)
    (transcript : Digest) :
    SameOutcome (replayLoop sha256 read absorbed label mismatch rows count running transcript)
      (replayLoop sha256 read' absorbed label mismatch' rows count running transcript) := by
  induction rows generalizing count running transcript with
  | nil => exact fun _ => Iff.rfl
  | cons row rows ih =>
    obtain ⟨hrow, hrows⟩ := List.forall_mem_cons.mp h
    intro value
    rw [replayLoop_cons_eq_ok, replayLoop_cons_eq_ok]
    simp only [hrow _, ih hrows _ _ _ _]

theorem isWord_of_deriveField {dom : Bytes} {seed : Digest} {index z : ℕ}
    (h : deriveField sha256 dom seed label index = .ok z) : IsWord z := by
  have hloop : rejectionSample _ _ (.builtin "") _ _ = .ok (z : ℤ) := deriveFieldLoop_eq_ok.mp h
  obtain ⟨word, hword, hlt⟩ := rejectionSample_eq_ok hloop
  obtain rfl := Int.ofNat.inj hword
  exact hlt

variable {r : ℕ}

theorem derive_eq_ok {seed : Digest} (hr : r + 1 < 2 ^ 32) {challenge : ℤ} :
    derive sha256 seed label (r + 1) = .ok challenge ↔
      ∃ z, deriveField sha256 challengeDomain seed label ((1 + r) % 2 ^ 32) = .ok z ∧
        IsWord z ∧ challenge = z := by
  rw [add_comm 1, Nat.mod_eq_of_lt hr]
  simp only [derive, bind_eq_ok, raiseIf_eq_ok]
  constructor
  · rintro ⟨-, -, h⟩
    obtain ⟨z, rfl, hz⟩ := rejectionSample_eq_ok h
    exact ⟨z, deriveFieldLoop_eq_ok.mpr h, hz, rfl⟩
  · rintro ⟨z, h, -, rfl⟩
    exact ⟨(), by omega, deriveFieldLoop_eq_ok.mp h⟩

theorem getD_flatRounds {rows : List Row} {row : Row} (hrow : rows[r]? = some row) :
    (Compiled.flatRounds rows).getD (4 * r) 0 = (row.e0 % 2 ^ 64).toNat ∧
      (Compiled.flatRounds rows).getD (4 * r + 1) 0 = (row.e1 % 2 ^ 64).toNat ∧
      (Compiled.flatRounds rows).getD (4 * r + 2) 0 = (row.e2 % 2 ^ 64).toNat ∧
      (Compiled.flatRounds rows).getD (4 * r + 3) 0 = (row.e3 % 2 ^ 64).toNat := by
  have hentry : ∀ j < 4, (Compiled.flatRounds rows)[4 * r + j]? =
      (row.toList.map fun v => (v % 2 ^ 64).toNat)[j]? := fun j hj =>
    getElem?_flatMap_of_width (fun _ => by simp [Row.toList]) hrow hj
  have h0 := hentry 0 (by norm_num)
  rw [Nat.add_zero] at h0
  simp only [List.getD_eq_getElem?_getD, h0, hentry 1 (by norm_num), hentry 2 (by norm_num),
    hentry 3 (by norm_num)]
  simp [Row.toList]

theorem replayLoop4_eq_ok {absorbTag : Bool} {rows : List Row} (hlength : rows.length < 2 ^ 31)
    (remaining : ℕ) {running : ℕ} (hr : r + remaining = rows.length) (hrunning : IsWord running)
    (t : Digest) (value : List ℤ × ℤ × Digest) :
    replayLoop sha256 readWords (if absorbTag then label else []) label mismatch (rows.drop r) r
        running t = .ok value ↔
      ∃ out, Compiled.replayLoop4 sha256 (Compiled.flatRounds rows) challengeDomain label absorbTag 1
          remaining r running t = .ok out ∧
        value = (out.1.map Nat.cast, (out.2.1 : ℤ), out.2.2) := by
  induction remaining generalizing r running t value with
  | zero =>
    rw [List.drop_eq_nil_of_le (by omega)]
    simp only [replayLoop, Compiled.replayLoop4, Except.ok.injEq, exists_eq_left', List.map_nil]
    exact eq_comm
  | succ remaining ih =>
    have hlt : r < rows.length := by omega
    have hget : rows[r]? = some rows[r] := List.getElem?_eq_getElem hlt
    obtain ⟨hg0, hg1, hg2, hg3⟩ := getD_flatRounds hget
    rw [(List.getElem_cons_drop hlt).symm, replayLoop_cons_eq_ok]
    generalize rows[r] = row at hg0 hg1 hg2 hg3
    -- the words of the row
    have hword : ∀ v : ℤ, ∃ w : ℕ, v % 2 ^ 64 = w := fun v =>
      Int.eq_ofNat_of_zero_le (Int.emod_nonneg _ (by norm_num))
    obtain ⟨w0, hw0⟩ := hword row.e0
    obtain ⟨w1, hw1⟩ := hword row.e1
    obtain ⟨w2, hw2⟩ := hword row.e2
    obtain ⟨w3, hw3⟩ := hword row.e3
    have hmap : row.map (· % 2 ^ 64) = ⟨w0, w1, w2, w3⟩ := by
      rw [Row.map, hw0, hw1, hw2, hw3]
    have hread : (∀ v ∈ row.toList, Canonical (v % 2 ^ 64)) ↔
        IsWord w0 ∧ IsWord w1 ∧ IsWord w2 ∧ IsWord w3 := by
      have hcanonical : ∀ w : ℕ, Canonical (w : ℤ) ↔ IsWord w := fun w =>
        canonical_iff_isWord (Int.natCast_nonneg w)
      simp only [Row.toList, List.forall_mem_cons, hw0, hw1, hw2, hw3, hcanonical, List.not_mem_nil,
        false_imp_iff, forall_const, and_true]
    have hbytes : (⟨w0, w1, w2, w3⟩ : Row).bytes =
        wordBytes w0 ++ wordBytes w1 ++ wordBytes w2 ++ wordBytes w3 := by
      simp [Row.bytes, fieldBytes, wordBytes]
    have hsum : IsWord w0 → IsWord w1 →
        (((w0 : ℤ) + w1) % goldilocksModulus = running ↔ glcAdd w0 w1 = running) := by
      intro h0 h1
      obtain ⟨hadd, hadd'⟩ := glcAdd_spec h0 h1
      rw [emod_eq_iff, and_iff_right hrunning.canonical, Int.cast_natCast, Int.cast_add,
        Int.cast_natCast, Int.cast_natCast, ← hadd']
      exact ⟨fun h => (hrunning.ext hadd h).symm, fun h => by rw [h]⟩
    simp only [readWords_eq_ok, hread, hmap, Compiled.replayLoop4, bind_eq_ok, returnIf_eq_ok, hg0,
      hg1, hg2, hg3, hw0, hw1, hw2, hw3, Int.toNat_natCast,
      derive_eq_ok (show r + 1 < 2 ^ 32 by omega), not_or, not_not, not_le]
    constructor
    · rintro ⟨_, ⟨⟨h0, h1, h2, h3⟩, rfl⟩, hrun, _, ⟨z, hz, hzword, rfl⟩, running', hlagrange, rest,
        hrest, rfl⟩
      obtain ⟨hnext, hnext'⟩ := recombine4_spec h0 h1 h2 h3 hzword
      obtain rfl := Except.ok.inj (hlagrange.symm.trans hnext')
      obtain ⟨out, hout, rfl⟩ := (ih (by omega) hnext _ _).mp hrest
      rw [hbytes] at hz hout
      exact ⟨_, ⟨(), ⟨h0, h1, h2, h3⟩, (), (hsum h0 h1).mp hrun, z, hz, out, hout, rfl⟩, rfl⟩
    · rintro ⟨_, ⟨-, ⟨h0, h1, h2, h3⟩, -, hrun, z, hz, out, hout, hvalue⟩, rfl⟩
      obtain rfl := Except.ok.inj hvalue
      have hzword := isWord_of_deriveField hz
      obtain ⟨hnext, hnext'⟩ := recombine4_spec h0 h1 h2 h3 hzword
      rw [← hbytes] at hz hout
      exact ⟨_, ⟨⟨h0, h1, h2, h3⟩, rfl⟩, (hsum h0 h1).mpr hrun, z, ⟨z, hz, hzword, rfl⟩, _, hnext', _,
        (ih (by omega) hnext _ _).mpr ⟨out, hout, rfl⟩, rfl⟩

theorem length_of_replayLoop4 {rounds : List ℕ} {dom : Bytes} {absorbTag : Bool}
    {indexBase remaining running : ℕ} {t : Digest} {out : List ℕ × ℕ × Digest}
    (h : Compiled.replayLoop4 sha256 rounds dom label absorbTag indexBase remaining r running t =
      .ok out) : out.1.length = remaining := by
  induction remaining generalizing r running t out with
  | zero =>
    obtain rfl := Except.ok.inj h
    rfl
  | succ remaining ih =>
    simp only [Compiled.replayLoop4, bind_eq_ok] at h
    obtain ⟨-, -, -, -, z, -, out', hout', hvalue⟩ := h
    obtain rfl := Except.ok.inj hvalue
    exact congrArg (· + 1) (ih hout')

variable (sha256) (label) (mismatch) in
/-- What the wrapper hands back with the library loaded: the outcome of the Python loop under the
reading `readWords`, or a return code where that loop raises. -/
theorem replayRounds4_cases (absorbTag : Bool) {rows : List Row} (hlength : rows.length < 2 ^ 31)
    {claimed : ℤ} (hclaimed : Canonical claimed) (t : Digest) :
    (∃ out, Compiled.replayRounds4 sha256 true t claimed rows challengeDomain label absorbTag 1 =
        some (.ok out) ∧
      replayLoop sha256 readWords (if absorbTag then label else []) label mismatch rows 0 claimed t =
        .ok (out.1.map Nat.cast, (out.2.1 : ℤ), out.2.2)) ∨
    (∃ fault, Compiled.replayRounds4 sha256 true t claimed rows challengeDomain label absorbTag 1 =
        some (.error fault) ∧
      ∀ value, replayLoop sha256 readWords (if absorbTag then label else []) label mismatch rows 0
        claimed t ≠ .ok value) := by
  have hmod : claimed % 2 ^ 64 = claimed := by
    have hword := (isWord_toNat hclaimed).lt
    have hnonneg := hclaimed.1
    exact Int.emod_eq_of_lt hnonneg (by omega)
  have hiterations : Compiled.intIterations rows.length = rows.length := by
    rw [Compiled.intIterations, Nat.mod_eq_of_lt (by omega), if_pos hlength]
  have hread : ∀ written : List ℕ, written.length = rows.length →
      (List.range rows.length).map (written.getD · 0) = written := by
    intro written hwritten
    refine List.ext_getElem (by simp [hwritten]) fun i _ hi => ?_
    rw [List.getElem_map, List.getElem_range, List.getD_eq_getElem _ _ hi]
  have hloop : ∀ value, replayLoop sha256 readWords (if absorbTag then label else []) label mismatch
      (rows.drop 0) 0 claimed.toNat t = .ok value ↔ _ :=
    replayLoop4_eq_ok hlength rows.length (Nat.zero_add _) (isWord_toNat hclaimed) t
  rw [List.drop_zero, Int.toNat_of_nonneg hclaimed.1] at hloop
  simp only [Compiled.replayRounds4, if_true, Option.some.injEq, hmod, hiterations]
  rcases hcall : Compiled.replayLoop4 sha256 (Compiled.flatRounds rows) challengeDomain label
    absorbTag 1 rows.length 0 claimed.toNat t with fault | out
  · refine .inr ⟨fault, rfl, fun value hvalue => ?_⟩
    obtain ⟨out, hout, -⟩ := (hloop value).mp hvalue
    rw [hcall] at hout
    exact nomatch hout
  · refine .inl ⟨out, ?_, (hloop _).mpr ⟨out, hcall, rfl⟩⟩
    change Except.ok ((List.range rows.length).map (out.1.getD · 0), out.2.1, out.2.2) = .ok out
    rw [hread _ (length_of_replayLoop4 hcall)]

end Loop

/-! ## The replays -/

section Replays

variable {sha256 : Bytes → Digest} {rows : List Row}

/-- How `_replay_rounds` reads a row, with and without the library. -/
def roundsReading (lib : Bool) : Row → Result Row := if lib then readWords else readField

/-- How `_replay_claims` reads a row, with and without the library. -/
def claimsReading (lib : Bool) : Row → Result Row := if lib then readWords else readReduced

/-- `_replay_rounds` is the Python loop under its reading. -/
theorem replayRounds_eq_ok (hlength : rows.length < 2 ^ 31) (lib : Bool) (claimed : ℤ)
    (transcript : Digest) (tag : Bytes) (value : ℤ × List ℤ × Digest) :
    replayRounds sha256 lib rows claimed transcript tag = .ok value ↔
      ∃ out, replayLoop sha256 (roundsReading lib) tag tag
          (.proofV3VerificationError "succinct-logup round does not match the running sum") rows 0
          (claimed % goldilocksModulus) transcript = .ok out ∧
        value = (out.2.1, out.1, out.2.2) := by
  cases lib with
  | false =>
    simp only [replayRounds, Compiled.replayRounds4, roundsReading, Bool.false_eq_true, if_false,
      bind_eq_ok, pure_eq_ok]
    exact exists_congr fun out => and_congr_right fun _ => eq_comm
  | true =>
    rw [roundsReading, if_pos rfl, replayRounds]
    rcases replayRounds4_cases sha256 tag
        (.proofV3VerificationError "succinct-logup round does not match the running sum") true
        hlength (canonical_emod claimed) transcript with ⟨out, hout, hloop⟩ | ⟨fault, hfault, hloop⟩
    · rw [if_pos rfl] at hloop
      simp only [hout, hloop, Except.ok.injEq, exists_eq_left']
      exact eq_comm
    · rw [if_pos rfl] at hloop
      simp only [hfault, hloop, false_and, exists_false, reduceCtorEq]

/-- The round stage of `_replay_claims` is the Python loop under its reading. -/
theorem replayClaimRounds_eq_ok (hlength : rows.length < 2 ^ 31) (lib : Bool) {running : ℤ}
    (hrunning : Canonical running) (transcript : Digest) (value : List ℤ × ℤ) :
    replayClaimRounds sha256 lib rows running transcript = .ok value ↔
      ∃ out, replayLoop sha256 (claimsReading lib) [] (asciiBytes "batchopen")
          (.proofV3VerificationError "batch opening round does not match the running sum") rows 0
          running transcript = .ok out ∧
        value = (out.1, out.2.1) := by
  cases lib with
  | false =>
    simp only [replayClaimRounds, Compiled.replayRounds4, claimsReading, Bool.false_eq_true, if_false,
      bind_eq_ok, pure_eq_ok]
    exact exists_congr fun out => and_congr_right fun _ => eq_comm
  | true =>
    rw [claimsReading, if_pos rfl, replayClaimRounds]
    rcases replayRounds4_cases sha256 (asciiBytes "batchopen")
        (.proofV3VerificationError "batch opening round does not match the running sum") false
        hlength hrunning transcript with ⟨out, hout, hloop⟩ | ⟨fault, hfault, hloop⟩
    · rw [if_neg Bool.false_ne_true] at hloop
      simp only [hout, hloop, Except.ok.injEq, exists_eq_left']
      exact eq_comm
    · rw [if_neg Bool.false_ne_true] at hloop
      simp only [hfault, hloop, false_and, exists_false, reduceCtorEq]

theorem readings_of_canonical {row : Row} (h : ∀ v ∈ row.toList, Canonical v) (lib : Bool) :
    roundsReading lib row = .ok row ∧ claimsReading lib row = .ok row := by
  have hword : ∀ v ∈ row.toList, v % 2 ^ 64 = v := fun v hv => by
    have hlt := (isWord_toNat (h v hv)).lt
    have hnonneg := (h v hv).1
    exact Int.emod_eq_of_lt hnonneg (by omega)
  have hwords : readWords row = .ok row := by
    refine readWords_eq_ok.mpr ⟨fun v hv => by rw [hword v hv]; exact h v hv, ?_⟩
    simp only [Row.toList, List.forall_mem_cons] at hword
    obtain ⟨h0, h1, h2, h3, -⟩ := hword
    rw [Row.map, h0, h1, h2, h3]
  have hreduced : readReduced row = .ok row := by
    simp only [Row.toList, List.forall_mem_cons] at h
    obtain ⟨h0, h1, h2, h3, -⟩ := h
    rw [readReduced, Row.map, h0.emod_eq, h1.emod_eq, h2.emod_eq, h3.emod_eq]
  cases lib with
  | false => exact ⟨readField_eq_ok.mpr ⟨h, rfl⟩, hreduced⟩
  | true => exact ⟨hwords, hwords⟩

theorem canonical_claimSum (coefficients : List ℤ) (claims : List GoldilocksBatchOpeningClaimV3) :
    Canonical (claimSum coefficients claims) := by
  rw [claimSum]
  refine List.foldlRecOn _ _ (show Canonical 0 by decide) fun running _ claim _ => ?_
  exact canonical_emod _

theorem replays_agree_of_canonical (hlength : rows.length < 2 ^ 31)
    (h : ∀ row ∈ rows, ∀ v ∈ row.toList, Canonical v) :
    (∀ pcsStatement commitment claims validatorNonce,
      SameOutcome (replayClaims sha256 pcsStatement true rows commitment claims validatorNonce)
        (replayClaims sha256 pcsStatement false rows commitment claims validatorNonce)) ∧
    (∀ claimed transcript tag,
      SameOutcome (replayRounds sha256 true rows claimed transcript tag)
        (replayRounds sha256 false rows claimed transcript tag)) := by
  constructor
  · intro pcsStatement commitment claims validatorNonce value
    have hread : ∀ row ∈ rows, SameOutcome (claimsReading true row) (claimsReading false row) := by
      intro row hrow evals
      rw [(readings_of_canonical (h row hrow) true).2, (readings_of_canonical (h row hrow) false).2]
    have hrounds : ∀ coefficients transcript value,
        replayClaimRounds sha256 true rows (claimSum coefficients claims) transcript = .ok value ↔
        replayClaimRounds sha256 false rows (claimSum coefficients claims) transcript = .ok value := by
      intro coefficients transcript value
      have hsum := canonical_claimSum coefficients claims
      rw [replayClaimRounds_eq_ok hlength _ hsum, replayClaimRounds_eq_ok hlength _ hsum]
      exact exists_congr fun out => and_congr_left' (replayLoop_congr hread _ _ _ out)
    simp only [replayClaims, bind_eq_ok, hrounds]
  · intro claimed transcript tag value
    have hread : ∀ row ∈ rows, SameOutcome (roundsReading true row) (roundsReading false row) := by
      intro row hrow evals
      rw [(readings_of_canonical (h row hrow) true).1, (readings_of_canonical (h row hrow) false).1]
    rw [replayRounds_eq_ok hlength, replayRounds_eq_ok hlength]
    exact exists_congr fun out => and_congr_left' (replayLoop_congr hread _ _ _ out)

end Replays

/-! ## Where the readings differ -/

theorem derive_constantThree (seed : Digest) (label : Bytes) {index : ℕ} (h : index < 2 ^ 32) :
    derive constantThree seed label index = .ok 3 := by
  simp only [derive, bind_eq_ok, raiseIf_eq_ok, digestWord_constantThree]
  exact ⟨(), not_le.mpr h, rejectionSample_first _ 65535 (by decide +kernel)⟩

theorem replayLoop_singleton {read : Row → Result Row} {absorbed label : Bytes} {mismatch : PyError}
    {running : ℤ} (transcript : Digest) (hread : read row = .ok evals)
    (hrunning : (evals.e0 + evals.e1) % goldilocksModulus = running) :
    ∃ running' transcript', replayLoop constantThree read absorbed label mismatch [row] 0 running
      transcript = .ok ([3], running', transcript') := by
  set value := cubic evals.e0 evals.e1 evals.e2 evals.e3 (3 : ℤ)
  have hlagrange : lagrange0123 evals 3 = .ok (ofField value) :=
    lagrange0123_eq_ok.mpr ⟨canonical_ofField _, intCast_ofField _⟩
  refine ⟨ofField value, _, replayLoop_cons_eq_ok.mpr ⟨evals, hread, hrunning, 3,
    derive_constantThree _ _ (by norm_num), _, hlagrange, _, rfl, rfl⟩⟩

/-- A row of four equal entries. -/
def constantRow (v : ℤ) : Row := ⟨v, v, v, v⟩

/-- An alias of a canonical entry modulo `2 ^ 64` passes `_replay_rounds` only with the library. -/
theorem replayRounds_disagree {v : ℤ} (hword : Canonical (v % 2 ^ 64)) (hv : ¬ Canonical v)
    (tag : Bytes) :
    ¬ SameOutcome
      (replayRounds constantThree true [constantRow v] (v % 2 ^ 64 + v % 2 ^ 64) Digest.zero tag)
      (replayRounds constantThree false [constantRow v] (v % 2 ^ 64 + v % 2 ^ 64) Digest.zero
        tag) := by
  intro hsame
  have hread : roundsReading true (constantRow v) = .ok (constantRow (v % 2 ^ 64)) :=
    readWords_eq_ok.mpr ⟨by simpa [constantRow, Row.toList] using hword, rfl⟩
  obtain ⟨running', transcript', hloop⟩ := replayLoop_singleton Digest.zero hread rfl
  have hcompiled := (replayRounds_eq_ok (by norm_num) true _ _ _ _).mpr ⟨_, hloop, rfl⟩
  obtain ⟨out, hout, -⟩ := (replayRounds_eq_ok (by norm_num) false _ _ _ _).mp
    ((hsame _).mp hcompiled)
  obtain ⟨evals, hevals, -⟩ := replayLoop_cons_eq_ok.mp hout
  exact hv ((readField_eq_ok.mp hevals).1 v (by simp [constantRow, Row.toList]))

/-- A claim at 0 whose multiple by 3 is the sum of the first two entries of `constantRow v`. -/
def constantClaim (v : ℤ) : GoldilocksBatchOpeningClaimV3 :=
  ⟨[0], (v + v) * powMod 3 (goldilocksModulus - 2) goldilocksModulus⟩

theorem claimSum_constantClaim (v : ℤ) :
    claimSum [3] [constantClaim v] = (v % goldilocksModulus + v % goldilocksModulus) %
      goldilocksModulus := by
  have hthree : (3 : F) ≠ 0 := by
    have h : ((3 : ℕ) : F) ≠ 0 := by
      rw [Ne, ZMod.natCast_eq_zero_iff]
      exact Nat.not_dvd_of_pos_of_lt (by norm_num) (by norm_num [goldilocksModulus])
    exact_mod_cast h
  change (0 + 3 * ((v + v) * powMod 3 (goldilocksModulus - 2) goldilocksModulus %
    goldilocksModulus)) % goldilocksModulus = _
  rw [emod_eq_emod_iff]
  push_cast [intCast_emod, intCast_powMod]
  rw [pow_modulus_sub_two hthree]
  field_simp
  ring

/-- An entry whose word is not below `p` passes `_replay_claims` only without the library. -/
theorem replayClaims_disagree {v : ℤ} (hword : ¬ Canonical (v % 2 ^ 64)) :
    ¬ SameOutcome
      (replayClaims constantThree oneVariableStatement true [constantRow v] (List.replicate 32 0)
        [constantClaim v] (List.replicate 32 0))
      (replayClaims constantThree oneVariableStatement false [constantRow v] (List.replicate 32 0)
        [constantClaim v] (List.replicate 32 0)) := by
  intro hsame
  have hread : claimsReading false (constantRow v) =
      .ok (constantRow (v % goldilocksModulus)) := readReduced_eq_ok.mpr rfl
  obtain ⟨running', transcript', hloop⟩ := replayLoop_singleton
    (constantThree []) hread (claimSum_constantClaim v).symm
  have hrounds := (replayClaimRounds_eq_ok (by norm_num) false (canonical_claimSum _ _) _ _).mpr
    ⟨_, hloop, rfl⟩
  have heq : eqCombination [3] [constantClaim v] [3] = .ok 18446744069414584315 := rfl
  have hterminal : terminalClaim [3] [constantClaim v] [3] running' =
      .ok ([3], running' * powMod 18446744069414584315 (goldilocksModulus - 2) goldilocksModulus %
        goldilocksModulus) := by
    simp only [terminalClaim, bind_eq_ok, raiseIf_eq_ok, pure_eq_ok]
    exact ⟨_, heq, (), by norm_num, rfl⟩
  have hcoefficients : (List.range [constantClaim v].length).mapM
      (derive constantThree (constantThree []) (asciiBytes "batchcoef")) = .ok [3] :=
    mapM_eq_ok.mpr (.cons (derive_constantThree _ _ (by norm_num)) .nil)
  -- the Python replay returns
  have hpython : ∃ value, replayClaims constantThree oneVariableStatement false [constantRow v]
      (List.replicate 32 0) [constantClaim v] (List.replicate 32 0) = .ok value := by
    simp only [replayClaims, bind_eq_ok, raiseIf_eq_ok, not_not]
    exact ⟨_, (), rfl, (), rfl, constantThree [], rfl, [3], hcoefficients, _, hrounds, hterminal⟩
  obtain ⟨value, hvalue⟩ := hpython
  have hcompiled := (hsame value).mpr hvalue
  simp only [replayClaims, bind_eq_ok] at hcompiled
  obtain ⟨-, -, -, -, transcript, -, coefficients, -, rounds, hrounds', -⟩ := hcompiled
  obtain ⟨out, hout, -⟩ := (replayClaimRounds_eq_ok (by norm_num) true (canonical_claimSum _ _) _
    _).mp hrounds'
  obtain ⟨evals, hevals, -⟩ := replayLoop_cons_eq_ok.mp hout
  exact hword ((readWords_eq_ok.mp hevals).1 v (by simp [constantRow, Row.toList]))

/-! ## The classes of entries on which the replays agree -/

/-- The compiled and the Python replays have the same outcome on every list of rows with entries
in `entries`: for every hash function, every statement, commitment, list of claims and nonce of
`_replay_claims`, and every claimed sum, transcript and tag of `_replay_rounds`. A list of `2 ^ 31`
rows and more does not fit the `int` counter of the library. -/
def ReplaysAgreeOn (entries : Set ℤ) : Prop :=
  ∀ (sha256 : Bytes → Digest) (rows : List Row), rows.length < 2 ^ 31 →
    (∀ row ∈ rows, ∀ v ∈ row.toList, v ∈ entries) →
    (∀ pcsStatement commitment claims validatorNonce,
      SameOutcome (replayClaims sha256 pcsStatement true rows commitment claims validatorNonce)
        (replayClaims sha256 pcsStatement false rows commitment claims validatorNonce)) ∧
    (∀ claimed transcript, ∀ tag ∈ replayTags,
      SameOutcome (replayRounds sha256 true rows claimed transcript tag)
        (replayRounds sha256 false rows claimed transcript tag))

/-- The replays agree on a class of entries exactly when all of its entries are canonical. -/
theorem replays_agree_iff (entries : Set ℤ) :
    ReplaysAgreeOn entries ↔ ∀ v ∈ entries, Canonical v := by
  constructor
  · intro hagree v hv
    have hrow : ∀ row ∈ [constantRow v], ∀ w ∈ row.toList, w ∈ entries := by
      simp [constantRow, Row.toList, hv]
    obtain ⟨hclaims, hrounds⟩ := hagree constantThree [constantRow v] (by norm_num) hrow
    by_cases hword : Canonical (v % 2 ^ 64)
    · by_contra hnot
      exact replayRounds_disagree hword hnot _ (hrounds _ _ _ List.mem_cons_self)
    · exact absurd (hclaims _ _ _ _) (replayClaims_disagree hword)
  · intro hcanonical sha256 rows hlength hentries
    obtain ⟨hclaims, hrounds⟩ := replays_agree_of_canonical hlength fun row hrow v hv =>
      hcanonical v (hentries row hrow v hv)
    exact ⟨hclaims, fun claimed transcript tag _ => hrounds claimed transcript tag⟩

/-- The entry `2 ^ 64` passes `_replay_rounds` with the library and not without; the entry `p` passes
`_replay_claims` without the library and not with it. -/
theorem replays_disagree_noncanonical :
    ¬ SameOutcome
        (replayRounds constantThree true [⟨2 ^ 64, 2 ^ 64, 2 ^ 64, 2 ^ 64⟩] 0 Digest.zero
          (asciiBytes "dsum"))
        (replayRounds constantThree false [⟨2 ^ 64, 2 ^ 64, 2 ^ 64, 2 ^ 64⟩] 0 Digest.zero
          (asciiBytes "dsum")) ∧
      ¬ SameOutcome
        (replayClaims constantThree oneVariableStatement true [constantRow goldilocksModulus]
          (List.replicate 32 0) [constantClaim goldilocksModulus] (List.replicate 32 0))
        (replayClaims constantThree oneVariableStatement false [constantRow goldilocksModulus]
          (List.replicate 32 0) [constantClaim goldilocksModulus] (List.replicate 32 0)) := by
  constructor
  · have halias : (2 : ℤ) ^ 64 % 2 ^ 64 = 0 := by norm_num
    have hword : Canonical ((2 : ℤ) ^ 64 % 2 ^ 64) := by rw [halias]; decide
    have h := replayRounds_disagree hword (by decide) (asciiBytes "dsum")
    rw [halias] at h
    exact h
  · exact replayClaims_disagree (by decide)

end Verathos.Logup
