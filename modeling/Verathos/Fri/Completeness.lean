import Verathos.Fri.Honest
import Verathos.Pcs.Completeness

/-!
# Completeness of the FRI reference

The verifier recomputes the challenges and the query pairs from the commitments, so it opens the trees
that the prover opened and checks the folds that the prover made. Its only other check is that the
final codeword is constant.
-/

namespace Verathos.Fri

open Merkle
open Pcs (Opened openLayer openLayer_eq_ok openedValues_spec mod_two_mul_eq constantThree
  digestWord_constantThree rejectionSample_first)

variable {sha256 : Bytes → Digest} {statement : GoldilocksFriStatementReference}

/-! ## Queries -/

theorem queryBasesLoop_ne_nil {candidate : ℕ → ℕ} {limit threshold queryCount remaining counter : ℕ}
    {result : Finset ℕ} {bases : List ℕ} (hpos : 1 ≤ queryCount)
    (h : queryBasesLoop candidate limit threshold queryCount remaining counter result = .ok bases) :
    bases ≠ [] := by
  induction remaining generalizing counter result with
  | zero => exact nomatch h
  | succ remaining ih =>
    rw [queryBasesLoop] at h
    dsimp only at h
    split_ifs at h with hreject hcard
    · exact ih h
    · rintro rfl
      have hlength := congrArg List.length (Except.ok.inj h)
      rw [Finset.length_sort, hcard, List.length_nil] at hlength
      omega
    · exact ih h

theorem deriveQueryBases_ne_nil {commitments : List Digest} {bases : List ℕ}
    (h : deriveQueryBases sha256 statement commitments = .ok bases) : bases ≠ [] := by
  simp only [deriveQueryBases, bind_eq_ok] at h
  obtain ⟨-, -, h⟩ := h
  exact queryBasesLoop_ne_nil statement.one_le_queryCount h

/-- The positions that a round opens: both members of the pair of every base. -/
structure IsPairs (m : ℕ) (bases indices : List ℕ) : Prop where
  admitted : IndicesAdmitted (2 ^ (m + 1)) indices
  mem : ∀ i, i ∈ indices ↔ ∃ base ∈ bases, i = base % 2 ^ m ∨ i = base % 2 ^ m + 2 ^ m

theorem pairIndices_spec {bases : List ℕ} (hbases : bases ≠ []) {r : ℕ}
    (hr : r < statement.roundCount) :
    ∃ indices, pairIndices statement bases r = .ok indices ∧
      IsPairs (statement.domainBits - r - 1) bases indices := by
  have hlt := statement.roundCount_lt
  have hhalf : statement.domainSize >>> (r + 1) = 2 ^ (statement.domainBits - r - 1) := by
    rw [statement.domainSize_shiftRight (by omega), Nat.sub_sub]
  set half := 2 ^ (statement.domainBits - r - 1) with hhalfDef
  have hpos : 0 < half := by positivity
  have hdouble : 2 ^ (statement.domainBits - r - 1 + 1) = 2 * half := by rw [pow_succ']
  set lows := (bases.map (· % half)).toFinset.sort with hlows
  have hmem : ∀ i, i ∈ lows ↔ ∃ base ∈ bases, base % half = i := by
    intro i
    rw [hlows, Finset.mem_sort, List.mem_toFinset, List.mem_map]
  have hsmall : ∀ i ∈ lows, i < half := by
    intro i hi
    obtain ⟨base, -, rfl⟩ := (hmem i).mp hi
    exact Nat.mod_lt base hpos
  have hsorted : (lows ++ lows.map (· + half)).Pairwise (· < ·) := by
    have hincreasing : lows.Pairwise (· < ·) := (Finset.sortedLT_sort _).pairwise
    rw [List.pairwise_append]
    refine ⟨hincreasing, ?_, fun i hi j hj => ?_⟩
    · exact hincreasing.map _ fun a b hab => Nat.add_lt_add_right hab half
    · obtain ⟨k, -, rfl⟩ := List.mem_map.mp hj
      have := hsmall i hi
      omega
  have hmemAll : ∀ i, i ∈ lows ++ lows.map (· + half) ↔
      ∃ base ∈ bases, i = base % half ∨ i = base % half + half := by
    intro i
    rw [List.mem_append, List.mem_map, hmem]
    constructor
    · rintro (⟨base, hbase, rfl⟩ | ⟨low, hlow, rfl⟩)
      · exact ⟨base, hbase, .inl rfl⟩
      · obtain ⟨base, hbase, rfl⟩ := (hmem low).mp hlow
        exact ⟨base, hbase, .inr rfl⟩
    · rintro ⟨base, hbase, rfl | rfl⟩
      · exact .inl ⟨base, hbase, rfl⟩
      · exact .inr ⟨base % half, (hmem _).mpr ⟨base, hbase, rfl⟩, rfl⟩
  refine ⟨lows ++ lows.map (· + half), ?_, ⟨?_, fun i hi => ?_, hsorted⟩, hmemAll⟩
  · simp only [pairIndices, bind_eq_ok, raiseIf_eq_ok, pure_eq_ok, hhalf]
    refine ⟨(), by omega, ?_⟩
    exact List.Pairwise.insertionSort_eq (hsorted.imp Nat.le_of_lt)
  · obtain ⟨base, hbase⟩ := List.exists_mem_of_ne_nil _ hbases
    exact List.ne_nil_of_mem ((hmemAll (base % half)).mpr ⟨base, hbase, .inl rfl⟩)
  · obtain ⟨base, -, hcase⟩ := (hmemAll i).mp hi
    have := Nat.mod_lt base hpos
    omega

theorem admitted_range {n : ℕ} (hpos : 0 < n) : IndicesAdmitted n (List.range n) where
  ne_nil := by
    rw [Ne, List.range_eq_nil]
    omega
  lt := fun _ => List.mem_range.mp
  sorted := List.pairwise_lt_range

/-! ## Openings -/

/-- A dictionary with the entries of a codeword at the opened positions. -/
def Opens (opened : Opened) (indices : List ℕ) (codeword : List ℤ) : Prop :=
  ∀ i, opened.lookup i = if i ∈ indices then some (codeword.getD i 0) else none

/-- What the verifier reads from the opening of a layer. -/
structure LayerOpened (sha256 : Bytes → Digest) (statement : GoldilocksFriStatementReference)
    (lib : Bool) (r : ℕ) (codeword : List ℤ) (indices : List ℕ) (o : ConstructedOpening)
    (opened : Opened) : Prop where
  opening : openLayer lib (roundTree sha256 statement r codeword) indices = .ok o
  accepted : Accepts (verifyGoldilocksMerkleMultiopeningReference sha256 lib
    (roundTree sha256 statement r codeword).commitment.bytes o.opening
    (bindingOf sha256 statement r).bytes (2 ^ (statement.domainBits - r)) 1 indices)
  values : openedValues o.opening = .ok opened
  opens : Opens opened indices codeword

theorem exists_layerOpened (lib : Bool) {r : ℕ} {codeword : List ℤ}
    (hcodeword : Codeword statement r codeword) {indices : List ℕ}
    (hindices : IndicesAdmitted (2 ^ (statement.domainBits - r)) indices) :
    ∃ o opened, LayerOpened sha256 statement lib r codeword indices o opened := by
  obtain ⟨o, ho, hopening⟩ := openLayer_eq_ok
    (open_honestTree sha256 (bindingOf sha256 statement r) lib hcodeword.table hindices)
  have hget : ∀ i ∈ indices, (codeword.map fun value => [value]).getD i [] = [codeword.getD i 0] := by
    intro i hi
    have hlt := hindices.lt i hi
    rw [← hcodeword.length_eq] at hlt
    rw [List.getD_eq_getElem _ _ (by simpa using hlt), List.getElem_map,
      List.getD_eq_getElem _ _ hlt]
  have hrows : ∀ i ∈ indices, (codeword.map fun value => [value]).getD i [] ≠ [] := by
    intro i hi
    rw [hget i hi]
    exact List.cons_ne_nil _ _
  obtain ⟨opened, hopened, hlookup⟩ := openedValues_spec ∅ hrows
  refine ⟨o, opened, ho, ?_, ?_, fun i => ?_⟩
  · rw [hopening]
    exact open_accepted sha256 _ lib hcodeword.table hindices fun _ => by norm_num
  · simp only [openedValues, bind_eq_ok, raiseIf_eq_ok, not_not, hopening]
    exact ⟨(), rfl, hopened⟩
  · rw [hlookup i]
    split_ifs with hi
    · rw [hget i hi, List.getD_cons_zero]
    · exact Finmap.lookup_empty i

theorem Opens.mem_keys {opened : Opened} {indices : List ℕ} {codeword : List ℤ}
    (h : Opens opened indices codeword) (i : ℕ) : i ∈ opened.keys ↔ i ∈ indices := by
  rw [Finmap.mem_keys, ← Finmap.lookup_isSome, h i]
  split_ifs with hi <;> simp [hi]

/-! ## The prover -/

/-- The constructor of a proof keeps digests as they are. -/
theorem normalizedCommitments_map_bytes (commitments : List Digest) :
    normalizedCommitments (commitments.map (·.bytes)) = .ok commitments := by
  have hzip : (commitments.map (·.bytes)).zipIdx =
      commitments.zipIdx.map (Prod.map (·.bytes) id) := List.zipIdx_map ..
  rw [normalizedCommitments, mapM_eq_ok, hzip, List.forall₂_map_left_iff]
  nth_rewrite 2 [← List.zipIdx_map_fst 0 commitments]
  rw [List.forall₂_map_right_iff, List.forall₂_same]
  exact fun x _ => fixedBytes32_eq_ok.mpr rfl

theorem postInit_spec {commitments : List Digest} (hne : commitments ≠ [])
    (hcount : commitments.length ≤ maxRounds + 1) (roundOpenings : List ConstructedOpening)
    (finalOpening : ConstructedOpening) :
    ∃ proof, GoldilocksFriProofReference.postInit (commitments.map (·.bytes)) roundOpenings
        finalOpening goldilocksFriReferenceAbiV3 goldilocksFriReferenceFormatVersionV3 = .ok proof ∧
      proof.commitments = commitments ∧ proof.roundOpenings = roundOpenings ∧
      proof.finalOpening = finalOpening := by
  have hnormalized := normalizedCommitments_map_bytes commitments
  rw [GoldilocksFriProofReference.postInit, if_neg (not_not.mpr rfl), if_neg (not_not.mpr rfl),
    dif_neg (by simpa using hne), dif_neg (by simpa using hcount)]
  split
  · next error herror => exact nomatch hnormalized.symm.trans herror
  · next normalized hok =>
    obtain rfl := Except.ok.inj (hnormalized.symm.trans hok)
    exact ⟨_, rfl, rfl, rfl, rfl⟩

section Run

variable {lib : Bool} {code : ℕ → List ℤ} {beta : ℕ → ℤ} {committed : Committed} {bases : List ℕ}
  {indices : ℕ → List ℕ} {opening : ℕ → ConstructedOpening} {opened : ℕ → Opened}

variable (sha256 statement) in
/-- The commitments of the layers of a run. -/
def runCommitments (code : ℕ → List ℤ) : List Digest :=
  (List.range (statement.roundCount + 1)).map fun r => (roundTree sha256 statement r (code r)).commitment

/-- The query phase of a run: the bases, and for every layer the positions, the opening and the
dictionary of its entries. The final layer is opened completely. -/
structure Queried (sha256 : Bytes → Digest) (statement : GoldilocksFriStatementReference) (lib : Bool)
    (code : ℕ → List ℤ) (bases : List ℕ) (indices : ℕ → List ℕ) (opening : ℕ → ConstructedOpening)
    (opened : ℕ → Opened) : Prop where
  derived : deriveQueryBases sha256 statement (runCommitments sha256 statement code) = .ok bases
  pairs : ∀ r < statement.roundCount, pairIndices statement bases r = .ok (indices r) ∧
    IsPairs (statement.domainBits - r - 1) bases (indices r)
  final : indices statement.roundCount = List.range statement.finalDomainSize
  layer : ∀ r ≤ statement.roundCount,
    LayerOpened sha256 statement lib r (code r) (indices r) (opening r) (opened r)

theorem exists_queried (lib : Bool)
    (hquery : ∀ commitments, commitments.length = statement.roundCount + 1 →
      Accepts (deriveQueryBases sha256 statement commitments))
    (hlayers : Layers sha256 statement 0 statement.roundCount [] code beta committed) :
    ∃ bases indices opening opened,
      Queried sha256 statement lib code bases indices opening opened := by
  have hlt := statement.roundCount_lt
  obtain ⟨bases, hbases⟩ := hquery (runCommitments sha256 statement code)
    (by rw [runCommitments, List.length_map, List.length_range])
  have hne := deriveQueryBases_ne_nil hbases
  have hpairs : ∀ r, r < statement.roundCount → ∃ indices,
      pairIndices statement bases r = .ok indices ∧
      IsPairs (statement.domainBits - r - 1) bases indices := fun r hr => pairIndices_spec hne hr
  choose! pairs hpairs using hpairs
  set indices : ℕ → List ℕ := fun r =>
    if r = statement.roundCount then List.range statement.finalDomainSize else pairs r with hindices
  have hround : ∀ r < statement.roundCount, indices r = pairs r := fun r hr => if_neg hr.ne
  have hfinal : indices statement.roundCount = List.range statement.finalDomainSize := if_pos rfl
  have hopened : ∀ r ≤ statement.roundCount, ∃ o opened,
      LayerOpened sha256 statement lib r (code r) (indices r) o opened := by
    intro r hr
    refine exists_layerOpened lib (hlayers.codeword r (Nat.zero_le r) (by omega)) ?_
    rcases Nat.eq_or_lt_of_le hr with rfl | hr
    · rw [hfinal, statement.finalDomainSize_eq]
      exact admitted_range (by positivity)
    · rw [hround r hr, show statement.domainBits - r = statement.domainBits - r - 1 + 1 by omega]
      exact (hpairs r hr).2.admitted
  have hnonempty : Nonempty ConstructedOpening := ⟨(hopened 0 (Nat.zero_le _)).choose⟩
  choose! opening opened hopened using hopened
  refine ⟨bases, indices, opening, opened, hbases, fun r hr => ?_, hfinal, hopened⟩
  rw [hround r hr]
  exact hpairs r hr

theorem prove_spec {evaluations : List ℤ}
    (hcommit : commitLayers sha256 statement evaluations = .ok committed)
    (hlayers : Layers sha256 statement 0 statement.roundCount [] code beta committed)
    (hqueried : Queried sha256 statement lib code bases indices opening opened) :
    ∃ proof, proveGoldilocksFriReference sha256 statement lib evaluations = .ok proof ∧
      proof.commitments = runCommitments sha256 statement code ∧
      proof.roundOpenings = (List.range statement.roundCount).map opening ∧
      proof.finalOpening = opening statement.roundCount := by
  have hlt := statement.roundCount_lt
  have hbits := statement.domainBits_le
  have htrees : committed.trees = (List.range (statement.roundCount + 1)).map fun r =>
      roundTree sha256 statement r (code r) := by
    rw [hlayers.trees, ← List.range_eq_range']
  have hcommitments : committed.trees.map (·.commitment) = runCommitments sha256 statement code := by
    rw [htrees, List.map_map]
    rfl
  have hlength : (runCommitments sha256 statement code).length = statement.roundCount + 1 := by
    rw [runCommitments, List.length_map, List.length_range]
  have htree : ∀ r ≤ statement.roundCount,
      getItem committed.trees r = .ok (roundTree sha256 statement r (code r)) := by
    intro r hr
    rw [getItem_eq_ok, htrees, List.getElem?_map, List.getElem?_range (by omega), Option.map_some]
  have hlast : committed.trees.length - 1 = statement.roundCount := by
    rw [htrees, List.length_map, List.length_range, Nat.add_sub_cancel]
  obtain ⟨proof, hproof, hspec⟩ := postInit_spec
    (show runCommitments sha256 statement code ≠ [] from List.ne_nil_of_length_pos (by omega))
    (by rw [hlength, maxRounds, goldilocksTwoAdicity]; omega)
    ((List.range statement.roundCount).map opening) (opening statement.roundCount)
  refine ⟨proof, ?_, hspec⟩
  rw [proveGoldilocksFriReference, bind_eq_ok]
  refine ⟨committed, hcommit, ?_⟩
  simp only [bind_eq_ok, hcommitments, hlast]
  refine ⟨bases, hqueried.derived, (List.range statement.roundCount).map opening,
    mapM_eq_ok_map fun r hr => ?_, _, htree _ le_rfl, opening statement.roundCount, ?_, hproof⟩
  · have hr := List.mem_range.mp hr
    simp only [bind_eq_ok]
    exact ⟨_, htree r hr.le, _, (hqueried.pairs r hr).1, (hqueried.layer r hr.le).opening⟩
  · rw [← hqueried.final]
    exact (hqueried.layer _ le_rfl).opening

/-! ## The verifier -/

variable {proof : GoldilocksFriProofReference}

variable {r : ℕ}

theorem getItem_runCommitments (hr : r ≤ statement.roundCount) :
    getItem (runCommitments sha256 statement code) r =
      .ok (roundTree sha256 statement r (code r)).commitment := by
  rw [getItem_eq_ok, runCommitments, List.getElem?_map, List.getElem?_range (by omega),
    Option.map_some]

theorem length_runCommitments :
    (runCommitments sha256 statement code).length = statement.roundCount + 1 := by
  rw [runCommitments, List.length_map, List.length_range]

variable (hlayers : Layers sha256 statement 0 statement.roundCount [] code beta committed)
  (hqueried : Queried sha256 statement lib code bases indices opening opened)
include hqueried

theorem verifyRoundOpening_accepts (hr : r < statement.roundCount) :
    Accepts (verifyRoundOpening sha256 statement lib (runCommitments sha256 statement code) bases
      (opening r) r) := by
  obtain ⟨domain, hdomain, his, -⟩ := roundDomain_spec hr.le
  simp only [verifyRoundOpening, accepts_bind]
  refine ⟨domain, hdomain, _, getItem_runCommitments hr.le, _, roundBinding_eq_ok hr.le, indices r,
    (hqueried.pairs r hr).1, ?_⟩
  rw [his.size]
  exact (hqueried.layer r hr.le).accepted

theorem verifyOpenings_eq_ok (hcommitments : proof.commitments = runCommitments sha256 statement code)
    (hopenings : proof.roundOpenings = (List.range statement.roundCount).map opening)
    (hfinal : proof.finalOpening = opening statement.roundCount) :
    verifyOpenings sha256 statement lib proof = .ok () := by
  have hrounds : Accepts (((List.range statement.roundCount).map opening).zipIdx.forM fun x =>
      verifyRoundOpening sha256 statement lib (runCommitments sha256 statement code) bases x.1
        x.2) := by
    refine forM_accepts_iff.mpr fun x hx => ?_
    obtain ⟨o, r⟩ := x
    obtain ⟨hr, rfl⟩ := List.getElem?_eq_some_iff.mp (List.mk_mem_zipIdx_iff_getElem?.mp hx)
    rw [List.length_map, List.length_range] at hr
    rw [List.getElem_map, List.getElem_range]
    exact verifyRoundOpening_accepts hqueried hr
  have hlast : getItem (runCommitments sha256 statement code) statement.roundCount =
      .ok (roundTree sha256 statement statement.roundCount (code statement.roundCount)).commitment :=
    getItem_runCommitments le_rfl
  obtain ⟨_, hrounds⟩ := hrounds
  obtain ⟨_, haccepted⟩ := (hqueried.layer _ le_rfl).accepted
  rw [hqueried.final, ← statement.finalDomainSize_eq] at haccepted
  simp only [verifyOpenings, bind_eq_ok, hcommitments, hopenings, hfinal, length_runCommitments,
    Nat.add_sub_cancel]
  exact ⟨bases, hqueried.derived, (), hrounds, _, hlast, _, roundBinding_eq_ok le_rfl, haccepted⟩

theorem mem_next (hr : r < statement.roundCount) {base : ℕ} (hbase : base ∈ indices r)
    (hlow : base < 2 ^ (statement.domainBits - r - 1)) : base ∈ indices (r + 1) := by
  have hlt := statement.roundCount_lt
  by_cases hlast : r + 1 = statement.roundCount
  · rw [hlast, hqueried.final, List.mem_range, statement.finalDomainSize_eq, ← hlast, ← Nat.sub_sub]
    exact hlow
  · obtain ⟨b, hb, hcase⟩ := ((hqueried.pairs r hr).2.mem base).mp hbase
    have hmod : base = b % 2 ^ (statement.domainBits - r - 1) := by omega
    have hdouble : 2 ^ (statement.domainBits - r - 1) = 2 * 2 ^ (statement.domainBits - (r + 1) - 1) := by
      rw [← pow_succ', show statement.domainBits - (r + 1) - 1 + 1 = statement.domainBits - r - 1 by
        omega]
    refine ((hqueried.pairs (r + 1) (by omega)).2.mem base).mpr ⟨b, hb, ?_⟩
    rw [hmod, hdouble]
    exact mod_two_mul_eq b _

theorem mem_partner (hr : r < statement.roundCount) {base : ℕ} (hbase : base ∈ indices r)
    (hlow : base < 2 ^ (statement.domainBits - r - 1)) :
    base + 2 ^ (statement.domainBits - r - 1) ∈ indices r := by
  obtain ⟨b, hb, hcase⟩ := ((hqueried.pairs r hr).2.mem base).mp hbase
  refine ((hqueried.pairs r hr).2.mem _).mpr ⟨b, hb, .inr ?_⟩
  omega

include hlayers in
theorem checkRound_eq_ok (hr : r < statement.roundCount) :
    checkRound sha256 statement (runCommitments sha256 statement code)
      ((List.range statement.roundCount).map opened) (opened statement.roundCount) (opened r) r =
        .ok () := by
  have hlt := statement.roundCount_lt
  obtain ⟨domain, hdomain, -, hfold⟩ := hlayers.fold r (Nat.zero_le r) (by omega)
  obtain ⟨_, hdomain', his, -⟩ := roundDomain_spec hr.le
  obtain rfl := Except.ok.inj (hdomain.symm.trans hdomain')
  obtain ⟨points, inverseTwo, hpoints, hinverseTwo, hentries⟩ := hfold.entry
  have hchallenge : deriveBeta sha256 statement
      ((runCommitments sha256 statement code).take (r + 1)) r = .ok (beta r) := by
    have hderived := hlayers.challenge r (Nat.zero_le r) (by omega)
    rw [List.nil_append, Nat.sub_zero, ← List.range_eq_range'] at hderived
    rw [runCommitments, ← List.map_take, List.take_range, Nat.min_eq_left (by omega)]
    exact hderived
  have htarget : targetValues statement ((List.range statement.roundCount).map opened)
      (opened statement.roundCount) r = .ok (opened (r + 1)) := by
    rw [targetValues]
    split_ifs with hlast
    · rw [hlast]
    · rw [getItem_eq_ok, List.getElem?_map, List.getElem?_range (by omega), Option.map_some]
  have hsize : domain.size / 2 = 2 ^ (statement.domainBits - r - 1) := by
    rw [his.size, show statement.domainBits - r = statement.domainBits - r - 1 + 1 by omega, pow_succ,
      Nat.mul_div_cancel _ (by norm_num), Nat.add_sub_cancel]
  simp only [checkRound, bind_eq_ok]
  refine ⟨beta r, hchallenge, domain, hdomain, points, hpoints, inverseTwo, hinverseTwo, _, htarget, ?_⟩
  rw [hsize]
  refine (forM_accepts_iff.mpr fun base hbase => ?_).elim fun _ h => h
  have hopens := (hqueried.layer r hr.le).opens
  rw [List.mem_filter, Finset.mem_sort, hopens.mem_keys, decide_eq_true_eq] at hbase
  obtain ⟨hbase, hlow⟩ := hbase
  obtain ⟨point, inverse, hpoint, hinverse, hentry⟩ := hentries base hlow
  have hpositive := hopens base
  have hnegative := hopens (base + 2 ^ (statement.domainBits - r - 1))
  have hnext := (hqueried.layer (r + 1) hr).opens base
  rw [if_pos hbase] at hpositive
  rw [if_pos (mem_partner hqueried hr hbase hlow)] at hnegative
  rw [if_pos (mem_next hqueried hr hbase hlow), hentry] at hnext
  simp only [checkFold, hpositive, hnegative, accepts_bind, getItem_eq_ok]
  refine ⟨point, hpoint, inverse, hinverse, (), raiseIf_eq_ok.mpr (not_not.mpr ?_)⟩
  rw [Nat.mod_eq_of_lt hlow, hnext, foldEntry, Int.emod_add_emod]

theorem openedRounds_eq_ok :
    ((List.range statement.roundCount).map opening).mapM (fun o => openedValues o.opening) =
      .ok ((List.range statement.roundCount).map opened) := by
  rw [mapM_eq_ok, List.forall₂_map_left_iff, List.forall₂_map_right_iff, List.forall₂_same]
  intro r hr
  exact (hqueried.layer r (List.mem_range.mp hr).le).values

include hlayers in
theorem checkRounds_eq_ok :
    ((List.range statement.roundCount).map opened).zipIdx.forM (fun x =>
      checkRound sha256 statement (runCommitments sha256 statement code)
        ((List.range statement.roundCount).map opened) (opened statement.roundCount) x.1 x.2) =
      .ok () := by
  refine (forM_accepts_iff.mpr fun x hx => ?_).elim fun _ h => h
  obtain ⟨dictionary, r⟩ := x
  obtain ⟨hr, rfl⟩ := List.getElem?_eq_some_iff.mp (List.mk_mem_zipIdx_iff_getElem?.mp hx)
  rw [List.length_map, List.length_range] at hr
  rw [List.getElem_map, List.getElem_range]
  exact ⟨(), checkRound_eq_ok hlayers hqueried hr⟩

theorem keys_final :
    (opened statement.roundCount).keys = Finset.range statement.finalDomainSize := by
  ext i
  rw [(hqueried.layer _ le_rfl).opens.mem_keys, hqueried.final, List.mem_range, Finset.mem_range]

include hlayers in
theorem card_valueSet_final :
    (valueSet (opened statement.roundCount)).card = 1 ↔ IsConstant committed.current := by
  have hcode := hlayers.codeword statement.roundCount (Nat.zero_le _) (by omega)
  have hlength : (code statement.roundCount).length = statement.finalDomainSize := by
    rw [hcode.length_eq, statement.finalDomainSize_eq]
  have hpos : 0 < statement.finalDomainSize := by
    rw [statement.finalDomainSize_eq]
    positivity
  have hvalues : valueSet (opened statement.roundCount) = (code statement.roundCount).toFinset := by
    ext v
    have hopens := (hqueried.layer _ le_rfl).opens
    rw [valueSet, keys_final hqueried, Finset.mem_image, List.mem_toFinset, List.mem_iff_getElem]
    constructor
    · rintro ⟨i, hi, rfl⟩
      have hi := Finset.mem_range.mp hi
      rw [hopens i, if_pos (by rw [hqueried.final]; exact List.mem_range.mpr hi), Option.getD_some,
        List.getD_eq_getElem _ _ (by omega)]
      exact ⟨i, by omega, rfl⟩
    · rintro ⟨i, hi, rfl⟩
      rw [hlength] at hi
      refine ⟨i, Finset.mem_range.mpr hi, ?_⟩
      rw [hopens i, if_pos (by rw [hqueried.final]; exact List.mem_range.mpr hi), Option.getD_some,
        List.getD_eq_getElem _ _ (by omega)]
  rw [hvalues, Finset.card_eq_one, hlayers.current, Nat.zero_add]
  constructor
  · rintro ⟨value, hvalue⟩
    refine ⟨value, fun v hv => ?_⟩
    rw [← List.mem_toFinset, hvalue] at hv
    exact Finset.mem_singleton.mp hv
  · rintro ⟨value, hvalue⟩
    refine ⟨value, Finset.eq_singleton_iff_unique_mem.mpr ⟨?_, fun v hv => ?_⟩⟩
    · obtain ⟨v, hv⟩ := List.exists_mem_of_length_pos (l := code statement.roundCount) (by omega)
      rw [List.mem_toFinset, ← hvalue v hv]
      exact hv
    · exact hvalue v (List.mem_toFinset.mp hv)

include hlayers in
/-- The verifier accepts the proof of a run exactly when the final codeword is constant, and raises its
last error otherwise. -/
theorem verify_spec
    (hcommitments : proof.commitments = runCommitments sha256 statement code)
    (hopenings : proof.roundOpenings = (List.range statement.roundCount).map opening)
    (hfinal : proof.finalOpening = opening statement.roundCount) :
    (IsConstant committed.current →
      verifyGoldilocksFriReference sha256 statement lib proof = .ok ()) ∧
    (¬ IsConstant committed.current → verifyGoldilocksFriReference sha256 statement lib proof =
      .error (.proofV3VerificationError "Goldilocks FRI final codeword is not constant")) := by
  have hcount : proof.commitments.length = statement.roundCount + 1 := by
    rw [hcommitments, length_runCommitments]
  have hrounds : proof.roundOpenings.length = statement.roundCount := by
    rw [hopenings, List.length_map, List.length_range]
  have hverified := verifyOpenings_eq_ok hqueried hcommitments hopenings hfinal
  have hopened := openedRounds_eq_ok hqueried
  have hchecked := checkRounds_eq_ok hlayers hqueried
  have hvalues := (hqueried.layer _ le_rfl).values
  have hkeys := keys_final hqueried
  rw [← hopenings] at hopened
  rw [← hcommitments] at hchecked
  rw [← hfinal] at hvalues
  rw [← card_valueSet_final hlayers hqueried]
  constructor
  · intro hcard
    simp only [verifyGoldilocksFriReference, bind_eq_ok, raiseIf_eq_ok, exceptListed_eq_ok, not_not]
    exact ⟨(), hcount, (), hrounds, (), hverified, _, hopened, _, hvalues, (), hchecked, (), hkeys,
      hcard⟩
  · intro hcard
    simp only [verifyGoldilocksFriReference, bind_eq_error, raiseIf_eq_ok, exceptListed_eq_ok, not_not]
    refine .inr ⟨(), hcount, .inr ⟨(), hrounds, .inr ⟨(), hverified, .inr ⟨_, hopened, .inr ⟨_, hvalues,
      .inr ⟨(), hchecked, .inr ⟨(), hkeys, ?_⟩⟩⟩⟩⟩⟩⟩
    exact raiseIf_eq_error.mpr ⟨hcard, rfl⟩

end Run

theorem fieldVector_eq_ok {values : List ℤ} {length : ℕ} (name : String)
    (hlength : values.length = length) (hcanonical : CanonicalVector values) :
    fieldVector values length name = .ok values := by
  have hitems : ∀ v ∈ values.zipIdx,
      canonicalGoldilocks v.1 (name ++ "[" ++ toString v.2 ++ "]") = .ok v.1 := by
    intro v hv
    exact canonicalGoldilocks_eq_ok.mpr ⟨hcanonical _ (List.fst_mem_of_mem_zipIdx hv), rfl⟩
  simp only [fieldVector, bind_eq_ok, raiseIf_eq_ok, not_not]
  refine ⟨(), hlength, ?_⟩
  rw [mapM_eq_ok_map hitems]
  exact congrArg Except.ok (List.zipIdx_map_fst 0 values)

/-- Completeness of the FRI reference. For every statement and every vector of canonical evaluations,
when the rejection loops find their candidates, the prover folds the vector with the derived challenges
to a final codeword and returns a proof. The verifier accepts it when the evaluations are those of a
polynomial within the degree bound on the coset of the statement, and rejects it whenever the final
codeword is not constant. Both hold with and without the compiled library. -/
theorem fri_complete (sha256 : Bytes → Digest) (statement : GoldilocksFriStatementReference)
    (evaluations : List ℤ) (lib : Bool) (hlength : evaluations.length = statement.domainSize)
    (hcanonical : CanonicalVector evaluations)
    (hbeta : ∀ commitments roundIndex, commitments.length = roundIndex + 1 →
      Accepts (deriveBeta sha256 statement commitments roundIndex))
    (hquery : ∀ commitments, commitments.length = statement.roundCount + 1 →
      Accepts (deriveQueryBases sha256 statement commitments)) :
    ∃ domain points committed proof,
      goldilocksRadix2DomainReference statement.domainSize statement.domainShift = .ok domain ∧
      domain.points = .ok points ∧
      commitLayers sha256 statement evaluations = .ok committed ∧
      proveGoldilocksFriReference sha256 statement lib evaluations = .ok proof ∧
      (∀ P : Polynomial F, P.degree < statement.degreeBound → Evaluates evaluations points P →
        verifyGoldilocksFriReference sha256 statement lib proof = .ok ()) ∧
      (¬ IsConstant committed.current → verifyGoldilocksFriReference sha256 statement lib proof =
        .error (.proofV3VerificationError "Goldilocks FRI final codeword is not constant")) := by
  obtain ⟨domain, hdomain, his, hshift⟩ := goldilocksRadix2DomainReference_spec statement.domainBits_le
    statement.canonical_domainShift statement.domainShift_ne_zero
  rw [← statement.domainSize_eq] at hdomain
  obtain ⟨points, hpoints, hpointsLength, -, hpoint⟩ := points_spec his
  have hcodeword : Codeword statement 0 evaluations :=
    ⟨by rw [hlength, Nat.sub_zero, statement.domainSize_eq], hcanonical⟩
  obtain ⟨code, beta, committed, rfl, hcommit, hlayers⟩ := commitRounds_spec hbeta
    (Nat.zero_add statement.roundCount) hcodeword List.length_nil
  have hcommitLayers : commitLayers sha256 statement (code 0) = .ok committed := by
    rw [commitLayers, bind_eq_ok]
    exact ⟨_, fieldVector_eq_ok _ hlength hcanonical, hcommit⟩
  obtain ⟨bases, indices, opening, opened, hqueried⟩ := exists_queried lib hquery hlayers
  obtain ⟨proof, hproof, hcommitments, hopenings, hfinal⟩ := prove_spec hcommitLayers hlayers hqueried
  obtain ⟨haccept, hreject⟩ := verify_spec hlayers hqueried hcommitments hopenings hfinal
  refine ⟨domain, points, committed, proof, hdomain, hpoints, hcommitLayers, hproof,
    fun P hdegree hP => haccept (hlayers.isConstant hdegree fun i hi => ?_), hreject⟩
  rw [statement.domainSize_eq] at hi
  rw [hP.2 i (hpointsLength ▸ hi), hpoint i hi, hshift]

/-- Four evaluations of a polynomial of degree less than two, with one query. -/
def smallStatement : GoldilocksFriStatementReference where
  bindingDigest := Digest.one
  domainSize := 4
  degreeBound := 2
  domainShift := 1
  queryCount := 1
  abiId := goldilocksFriReferenceAbiV3
  formatVersion := goldilocksFriReferenceFormatVersionV3
  abi_eq := rfl
  version_eq := rfl
  binding_ne_zero := Digest.one_ne_zero
  domainSize_pow := by decide
  degreeBound_pow := by decide
  degreeBound_lt := by decide
  finalDomainSize_le := by decide
  one_le_queryCount := one_le_one_nat
  queryCount_le := by decide
  queryCount_le_half := by decide
  canonical_domainShift := by decide
  domainShift_ne_zero := by decide

/-- The constant 5 with a hash whose words are all 3: the challenge is 3 and the query base is 1. -/
theorem fri_complete_small :
    ∃ proof, proveGoldilocksFriReference constantThree smallStatement false [5, 5, 5, 5] = .ok proof ∧
      verifyGoldilocksFriReference constantThree smallStatement false proof = .ok () := by
  obtain ⟨domain, points, -, proof, hdomain, hpoints, -, hproof, haccept, -⟩ :=
    fri_complete constantThree smallStatement [5, 5, 5, 5] false rfl
      (by simp [CanonicalVector, Canonical, goldilocksModulus]) (fun commitments roundIndex h => by
        simp only [deriveBeta, digestWord_constantThree, accepts_bind, raiseIf_eq_ok, not_not]
        exact ⟨(), h, 3, rejectionSample_first _ 65535 (by decide +kernel)⟩) (fun commitments h => by
        simp only [deriveQueryBases, digestWord_constantThree, accepts_bind, raiseIf_eq_ok, not_not]
        exact ⟨(), h, [1], by decide +kernel⟩)
  have hlength : points.length = 4 := by
    obtain ⟨_, hdomain', his, -⟩ :=
      goldilocksRadix2DomainReference_spec (k := 2) (by norm_num) (show Canonical 1 by decide)
        (by norm_num)
    obtain rfl := Except.ok.inj (hdomain.symm.trans hdomain')
    obtain ⟨_, hpoints', hlength, -⟩ := points_spec his
    obtain rfl := Except.ok.inj (hpoints.symm.trans hpoints')
    exact hlength
  refine ⟨proof, hproof, haccept (Polynomial.C 5) ?_ ⟨hlength.symm, fun i hi => ?_⟩⟩
  · exact Polynomial.degree_C_le.trans_lt (by decide)
  · rw [hlength] at hi
    rw [Polynomial.eval_C]
    interval_cases i <;> norm_num [fieldAt]

end Verathos.Fri
