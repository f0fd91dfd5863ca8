import Verathos.Goldilocks.Numpy
import Verathos.Pcs.Words

/-!
# Multilinear folds on machine words

A translation of `gl_add_np`, `gl_sub_np`, `mle_eval_msb_np` and `mle_eval_lsb_np` of
`goldilocks_numpy.py`, and of the folds on unbounded integers that they replace: `_mle_eval_msb` of
`goldilocks_succinct_logup_argument_reference.py` and the loop of `_mle_eval_lsb` of
`economic_lm_head_weight_fold.py`.

- The operations on words compute in the field (`glAddNp_spec`, `glSubNp_spec`).
- A vector of words represents the vector of its values. A fold of words represents the fold of the
  values (`Represents.fold`), so both evaluations agree (`wordArithmetic_exact`).
-/

namespace Verathos.Numpy

/-- `gl_sub_np`, of one element. -/
def glSubNp (a b : UInt64) : UInt64 :=
  let r := a - b
  if a < b then r + modulusWord else r

/-- `gl_add_np`, of one element. -/
def glAddNp (a b : UInt64) : UInt64 :=
  let r := a + b
  let r := if r < a then r + mask32 else r
  if r ≥ modulusWord then r - modulusWord else r

/-- An elementwise operation of numpy: the arrays have one length, or one of them has one element. -/
def elementwise (op : UInt64 → UInt64 → UInt64) (a b : List UInt64) : Result (List UInt64) :=
  if a.length = b.length then .ok (List.zipWith op a b)
  else if a.length = 1 then .ok (b.map (op (a.getD 0 0)))
  else if b.length = 1 then .ok (a.map fun x => op x (b.getD 0 0))
  else .error (.builtin "ValueError")

/-- `np.uint64(value)`. -/
def toWord (value : ℤ) : Result UInt64 := do
  raiseIf (¬ (0 ≤ value ∧ value < 2 ^ 64)) (.builtin "OverflowError")
  return UInt64.ofNat value.toNat

/-- `lo + (hi - lo) * challenge`. -/
def foldNp (lo hi : List UInt64) (challenge : UInt64) : Result (List UInt64) := do
  let diff ← elementwise glSubNp hi lo
  elementwise glAddNp lo (diff.map fun d => glMulNp d challenge)

/-- Every second entry, `work[0::2]`. -/
def everySecond {α : Type} : List α → List α
  | [] => []
  | [a] => [a]
  | a :: _ :: rest => a :: everySecond rest

/-- The halves of an array. -/
def halves {α : Type} (work : List α) : List α × List α :=
  (work.take (work.length / 2), work.drop (work.length / 2))

/-- The even and the odd entries of an array. -/
def evenOdd {α : Type} (work : List α) : List α × List α :=
  (everySecond work, everySecond work.tail)

section Evaluation

variable (split : List UInt64 → List UInt64 × List UInt64)

/-- A round of an evaluation on words. -/
def roundNp (work : List UInt64) (challenge : ℤ) : Result (List UInt64) := do
  let challenge ← toWord challenge
  foldNp (split work).1 (split work).2 challenge

/-- An evaluation on words. -/
def evalNp (values point : List ℤ) : Result ℤ := do
  let work ← values.mapM toWord
  let work ← point.foldlM (roundNp split) work
  let first ← getItem work 0
  return first.toNat

end Evaluation

def mleEvalMsbNp (values point : List ℤ) : Result ℤ := evalNp halves values point

def mleEvalLsbNp (values point : List ℤ) : Result ℤ := evalNp evenOdd values point

/-! ## The folds on unbounded integers -/

/-- A round of `_mle_eval_msb`. -/
def foldMsb (work : List ℤ) (r : ℤ) : List ℤ :=
  let half := work.length / 2
  (List.range half).map fun i =>
    (work.getD i 0 + r * (work.getD (half + i) 0 - work.getD i 0)) % goldilocksModulus

def mleEvalMsb (values point : List ℤ) : Result ℤ := getItem (point.foldl foldMsb values) 0

/-- A round of the loop of `_mle_eval_lsb`. -/
def foldLsb (work : List ℤ) (z : ℤ) : List ℤ :=
  let z := z % goldilocksModulus
  (List.range (work.length / 2)).map fun i =>
    (work.getD (2 * i) 0 + z * (work.getD (2 * i + 1) 0 - work.getD (2 * i) 0)) % goldilocksModulus

/-- `_mle_eval_lsb` without its shortcut to words. -/
def mleEvalLsb (values point : List ℤ) : Result ℤ := do
  let work := values.map (· % (goldilocksModulus : ℤ))
  let first ← getItem (point.foldl foldLsb work) 0
  return first % goldilocksModulus

/-! ## Words -/

theorem glAddNp_spec {a b : UInt64} (ha : a.toNat < goldilocksModulus)
    (hb : b.toNat < goldilocksModulus) :
    (glAddNp a b).toNat = (a.toNat + b.toNat) % goldilocksModulus := by
  have hmodulus : modulusWord.toNat = 2 ^ 64 - 2 ^ 32 + 1 := rfl
  have hmask : mask32.toNat = 2 ^ 32 - 1 := rfl
  rw [goldilocksModulus] at ha hb ⊢
  -- a carry is worth `2 ^ 32 - 1`, and then the sum is already less than the modulus
  obtain ⟨r, hr, hrValue⟩ : ∃ r : UInt64, (if a + b < a then a + b + mask32 else a + b) = r ∧
      (r.toNat = a.toNat + b.toNat ∨
        r.toNat + (2 ^ 64 - 2 ^ 32 + 1) = a.toNat + b.toNat) := by
    refine ⟨_, rfl, ?_⟩
    split_ifs with hcarry
    · rw [UInt64.lt_iff_toNat_lt, UInt64.toNat_add] at hcarry
      rw [UInt64.toNat_add, UInt64.toNat_add, hmask]
      omega
    · rw [UInt64.lt_iff_toNat_lt, UInt64.toNat_add] at hcarry
      rw [UInt64.toNat_add]
      omega
  have hrMax := UInt64.toNat_lt r
  simp only [glAddNp, hr]
  split_ifs with hlarge
  · rw [ge_iff_le, UInt64.le_iff_toNat_le, hmodulus] at hlarge
    rw [UInt64.toNat_sub, hmodulus]
    omega
  · rw [ge_iff_le, UInt64.le_iff_toNat_le, hmodulus] at hlarge
    omega

theorem glSubNp_spec {a b : UInt64} (ha : a.toNat < goldilocksModulus)
    (hb : b.toNat < goldilocksModulus) :
    ((glSubNp a b).toNat : ℤ) = ((a.toNat : ℤ) - b.toNat) % goldilocksModulus := by
  have hmodulus : modulusWord.toNat = 2 ^ 64 - 2 ^ 32 + 1 := rfl
  simp only [glSubNp, UInt64.lt_iff_toNat_lt]
  rw [goldilocksModulus] at *
  split_ifs with hborrow
  · rw [UInt64.toNat_add, UInt64.toNat_sub, hmodulus]
    omega
  · rw [UInt64.toNat_sub]
    omega

theorem glMulNp_lt (a b : UInt64) : (glMulNp a b).toNat < goldilocksModulus := by
  rw [glMulNp_spec]
  exact Nat.mod_lt _ goldilocksModulus_prime.pos

theorem foldEntry_spec {lo hi : UInt64} (hlo : lo.toNat < goldilocksModulus)
    (hhi : hi.toNat < goldilocksModulus) (c : UInt64) :
    ((glAddNp lo (glMulNp (glSubNp hi lo) c)).toNat : ℤ) =
      ((lo.toNat : ℤ) + c.toNat * ((hi.toNat : ℤ) - lo.toNat)) % goldilocksModulus := by
  rw [glAddNp_spec hlo (glMulNp_lt _ _), glMulNp_spec]
  push_cast
  rw [glSubNp_spec hhi hlo, emod_eq_emod_iff]
  push_cast [intCast_emod]
  ring

/-! ## Vectors -/

/-- The words are canonical and have the values. -/
structure Represents (words : List UInt64) (values : List ℤ) : Prop where
  values_eq : values = words.map fun w => (w.toNat : ℤ)
  lt : ∀ w ∈ words, w.toNat < goldilocksModulus

/-- A power of two, or the empty vector that folding a single entry leaves. -/
def FoldLength (n : ℕ) : Prop := n = 0 ∨ ∃ k, n = 2 ^ k

theorem FoldLength.half {n : ℕ} (h : FoldLength n) :
    FoldLength (n / 2) ∧ (n = 2 * (n / 2) ∨ n = 1) := by
  rcases h with rfl | ⟨k, rfl⟩
  · exact ⟨.inl rfl, .inl rfl⟩
  · cases k with
    | zero => exact ⟨.inl rfl, .inr rfl⟩
    | succ k =>
      rw [pow_succ', Nat.mul_div_cancel_left _ (by norm_num)]
      exact ⟨.inr ⟨k, rfl⟩, .inl rfl⟩

/-- The values of a 64-bit word. -/
def Fits64 (value : ℤ) : Prop := 0 ≤ value ∧ value < 2 ^ 64

theorem fits64_of_canonical {value : ℤ} (h : Canonical value) : Fits64 value := by
  obtain ⟨hzero, hlt⟩ := h
  have hmodulus : goldilocksModulus = 2 ^ 64 - 2 ^ 32 + 1 := rfl
  exact ⟨hzero, by omega⟩

theorem toWord_eq_ok {value : ℤ} (h : Fits64 value) :
    ∃ w, toWord value = .ok w ∧ (w.toNat : ℤ) = value := by
  obtain ⟨hzero, hlt⟩ := h
  refine ⟨UInt64.ofNat value.toNat, ?_, ?_⟩
  · rw [toWord, raiseIf, if_neg (by simp only [not_not]; omega)]
    rfl
  · rw [UInt64.toNat_ofNat', Nat.mod_eq_of_lt (by omega)]
    omega

theorem represents_mapM {values : List ℤ} (h : ∀ v ∈ values, Canonical v) :
    ∃ words, values.mapM toWord = .ok words ∧ Represents words values := by
  induction values with
  | nil => exact ⟨[], rfl, rfl, by simp⟩
  | cons v values ih =>
    obtain ⟨hv, hrest⟩ := List.forall_mem_cons.mp h
    obtain ⟨words, hwords, heq, hlt⟩ := ih hrest
    obtain ⟨w, hw, hvalue⟩ := toWord_eq_ok (fits64_of_canonical hv)
    refine ⟨w :: words, ?_, ?_, ?_⟩
    · exact mapM_eq_ok.mpr (.cons hw (mapM_eq_ok.mp hwords))
    · rw [List.map_cons, hvalue, ← heq]
    · refine List.forall_mem_cons.mpr ⟨?_, hlt⟩
      have := hv.2
      omega

/-- A fold of words represents the fold of the values. The halves have one length, or there is one
entry and nothing is left of it. -/
theorem represents_foldNp {lo hi : List UInt64} {c : UInt64}
    (hlo : ∀ w ∈ lo, w.toNat < goldilocksModulus) (hhi : ∀ w ∈ hi, w.toNat < goldilocksModulus)
    (hlength : lo.length = hi.length ∨ lo = [] ∧ hi.length = 1 ∨ lo.length = 1 ∧ hi = []) :
    ∃ words, foldNp lo hi c = .ok words ∧
      Represents words ((List.range (min lo.length hi.length)).map fun i =>
        (((lo.getD i 0).toNat : ℤ) +
          c.toNat * (((hi.getD i 0).toNat : ℤ) - (lo.getD i 0).toNat)) % goldilocksModulus) := by
  rcases hlength with hlength | ⟨rfl, hone⟩ | ⟨hone, rfl⟩
  · have hwords : List.zipWith glAddNp lo ((List.zipWith glSubNp hi lo).map fun d => glMulNp d c) =
        (List.range (min lo.length hi.length)).map fun i =>
          glAddNp (lo.getD i 0) (glMulNp (glSubNp (hi.getD i 0) (lo.getD i 0)) c) := by
      refine List.ext_getElem (by simp [min_comm]) fun i hi hi' => ?_
      rw [List.length_map, List.length_range] at hi'
      rw [List.getElem_zipWith, List.getElem_map, List.getElem_zipWith, List.getElem_map,
        List.getElem_range, List.getD_eq_getElem _ _ (by omega), List.getD_eq_getElem _ _ (by omega)]
    refine ⟨List.zipWith glAddNp lo ((List.zipWith glSubNp hi lo).map fun d => glMulNp d c), ?_, ?_,
      ?_⟩
    · rw [foldNp, elementwise, if_pos hlength.symm]
      show elementwise glAddNp lo _ = _
      rw [elementwise, if_pos (by simp [hlength])]
    · rw [hwords, List.map_map]
      refine List.map_congr_left fun i hi => ?_
      rw [List.mem_range] at hi
      refine (foldEntry_spec (hlo _ ?_) (hhi _ ?_) c).symm
      · rw [List.getD_eq_getElem _ _ (by omega)]
        exact List.getElem_mem _
      · rw [List.getD_eq_getElem _ _ (by omega)]
        exact List.getElem_mem _
    · intro w hw
      rw [hwords] at hw
      obtain ⟨i, hi, rfl⟩ := List.mem_map.mp hw
      rw [List.mem_range] at hi
      rw [glAddNp_spec (hlo _ ?_) (glMulNp_lt _ _)]
      · exact Nat.mod_lt _ goldilocksModulus_prime.pos
      · rw [List.getD_eq_getElem _ _ (by omega)]
        exact List.getElem_mem _
  · exact ⟨[], by simp [foldNp, elementwise, hone], by simp, by simp⟩
  · exact ⟨[], by simp [foldNp, elementwise, hone], by simp, by simp⟩

/-! ## Splits -/

theorem getElem?_everySecond {α : Type} (work : List α) (i : ℕ) :
    (everySecond work)[i]? = work[2 * i]? := by
  induction i generalizing work with
  | zero =>
    match work with
    | [] => rfl
    | [a] => rfl
    | a :: b :: rest => rfl
  | succ i ih =>
    match work with
    | [] => rfl
    | [a] => simp [everySecond]
    | a :: b :: rest =>
      rw [everySecond, List.getElem?_cons_succ, ih]
      rfl

theorem length_everySecond {α : Type} (work : List α) :
    (everySecond work).length = (work.length + 1) / 2 := by
  fun_induction everySecond with
  | case1 => simp
  | case2 a => simp
  | case3 a b rest ih =>
    simp only [List.length_cons, ih]
    omega

theorem mem_of_mem_everySecond {α : Type} {work : List α} {a : α} (h : a ∈ everySecond work) :
    a ∈ work := by
  obtain ⟨i, hi⟩ := List.mem_iff_getElem?.mp h
  rw [getElem?_everySecond] at hi
  exact List.mem_of_getElem? hi

/-- What both splits have in common: entries of the array, in parts that a fold can combine. -/
structure Splits (split : List UInt64 → List UInt64 × List UInt64) (low high : ℕ → ℕ → ℕ) : Prop where
  mem : ∀ work w, w ∈ (split work).1 ∨ w ∈ (split work).2 → w ∈ work
  fst : ∀ work i, i < work.length / 2 → (split work).1.getD i 0 = work.getD (low work.length i) 0
  snd : ∀ work i, i < work.length / 2 → (split work).2.getD i 0 = work.getD (high work.length i) 0
  even : ∀ work : List UInt64, work.length = 2 * (work.length / 2) →
    (split work).1.length = work.length / 2 ∧ (split work).2.length = work.length / 2
  single : ∀ work : List UInt64, work.length = 1 →
    (split work).1 = [] ∧ (split work).2.length = 1 ∨
      (split work).1.length = 1 ∧ (split work).2 = []

theorem splits_halves : Splits halves (fun _ i => i) (fun n i => n / 2 + i) where
  mem := by
    rintro work w (h | h)
    · exact List.mem_of_mem_take h
    · exact List.mem_of_mem_drop h
  fst := by
    intro work i hi
    simp [halves, List.getD_eq_getElem?_getD, hi]
  snd := by
    intro work i _
    simp [halves, List.getD_eq_getElem?_getD]
  even := by
    intro work h
    simp only [halves, List.length_take, List.length_drop]
    omega
  single := by
    intro work h
    refine .inl ⟨?_, ?_⟩ <;> simp [halves, h]

theorem splits_evenOdd : Splits evenOdd (fun _ i => 2 * i) (fun _ i => 2 * i + 1) where
  mem := by
    rintro work w (h | h)
    · exact mem_of_mem_everySecond h
    · exact List.mem_of_mem_tail (mem_of_mem_everySecond h)
  fst := by
    intro work i _
    simp [evenOdd, List.getD_eq_getElem?_getD, getElem?_everySecond]
  snd := by
    intro work i _
    simp [evenOdd, List.getD_eq_getElem?_getD, getElem?_everySecond]
  even := by
    intro work h
    simp only [evenOdd, length_everySecond, List.length_tail]
    omega
  single := by
    intro work h
    refine .inr ⟨?_, ?_⟩
    · simp [evenOdd, length_everySecond, h]
    · obtain ⟨w, rfl⟩ := List.length_eq_one_iff.mp h
      rfl

/-! ## Evaluations -/

/-- A round of a fold on unbounded integers, at the indexes of a split. -/
def foldAt (low high : ℕ → ℕ → ℕ) (work : List ℤ) (r : ℤ) : List ℤ :=
  (List.range (work.length / 2)).map fun i =>
    (work.getD (low work.length i) 0 +
      r * (work.getD (high work.length i) 0 - work.getD (low work.length i) 0)) % goldilocksModulus

section Evaluations

variable {split : List UInt64 → List UInt64 × List UInt64} {low high : ℕ → ℕ → ℕ}

variable {words : List UInt64} {values : List ℤ}

theorem Represents.length_eq (h : Represents words values) : words.length = values.length := by
  rw [h.values_eq, List.length_map]

theorem Represents.getD_eq (h : Represents words values) (i : ℕ) :
    ((words.getD i 0).toNat : ℤ) = values.getD i 0 := by
  rw [h.values_eq, List.getD_eq_getElem?_getD, List.getD_eq_getElem?_getD, List.getElem?_map]
  cases words[i]? <;> rfl

theorem Represents.fold (hsplit : Splits split low high) (h : Represents words values)
    (hlength : FoldLength values.length) (c : UInt64) :
    ∃ folded, foldNp (split words).1 (split words).2 c = .ok folded ∧
      Represents folded (foldAt low high values c.toNat) := by
  rw [← h.length_eq] at hlength
  have hparts : (split words).1.length = (split words).2.length ∨
      (split words).1 = [] ∧ (split words).2.length = 1 ∨
        (split words).1.length = 1 ∧ (split words).2 = [] := by
    rcases hlength.half.2 with heven | hone
    · obtain ⟨hfst, hsnd⟩ := hsplit.even words heven
      exact .inl (hfst.trans hsnd.symm)
    · exact .inr (hsplit.single words hone)
  have hcount : min (split words).1.length (split words).2.length = words.length / 2 := by
    rcases hlength.half.2 with heven | hone
    · obtain ⟨hfst, hsnd⟩ := hsplit.even words heven
      rw [hfst, hsnd, min_self]
    · rcases hsplit.single words hone with ⟨hfst, -⟩ | ⟨-, hsnd⟩
      · rw [hfst, hone]
        simp
      · rw [hsnd, hone]
        simp
  obtain ⟨folded, hfolded, hrepresents⟩ := represents_foldNp (c := c)
    (fun w hw => h.lt w (hsplit.mem words w (.inl hw)))
    (fun w hw => h.lt w (hsplit.mem words w (.inr hw))) hparts
  refine ⟨folded, hfolded, ?_⟩
  rw [hcount] at hrepresents
  convert hrepresents using 1
  rw [foldAt, ← h.length_eq]
  refine List.map_congr_left fun i hi => ?_
  rw [List.mem_range] at hi
  rw [hsplit.fst words i hi, hsplit.snd words i hi, h.getD_eq, h.getD_eq]

theorem Represents.foldlM (hsplit : Splits split low high) {point : List ℤ}
    (hpoint : ∀ r ∈ point, Fits64 r) (h : Represents words values)
    (hlength : FoldLength values.length) :
    ∃ folded, point.foldlM (roundNp split) words = .ok folded ∧
      Represents folded (point.foldl (foldAt low high) values) := by
  induction point generalizing words values with
  | nil => exact ⟨words, rfl, h⟩
  | cons r point ih =>
    obtain ⟨hr, hrest⟩ := List.forall_mem_cons.mp hpoint
    obtain ⟨c, hc, hvalue⟩ := toWord_eq_ok hr
    obtain ⟨next, hnext, hrepresents⟩ := h.fold hsplit hlength c
    rw [hvalue] at hrepresents
    have hhalf : FoldLength (foldAt low high values r).length := by
      rw [foldAt, List.length_map, List.length_range]
      exact hlength.half.1
    obtain ⟨folded, hfolded, hfinal⟩ := ih hrest hrepresents hhalf
    refine ⟨folded, ?_, hfinal⟩
    rw [List.foldlM_cons, bind_eq_ok]
    exact ⟨next, bind_eq_ok.mpr ⟨c, hc, hnext⟩, hfolded⟩

theorem Represents.canonical (h : Represents words values) {v : ℤ} (hv : v ∈ values) :
    Canonical v := by
  rw [h.values_eq] at hv
  obtain ⟨w, hw, rfl⟩ := List.mem_map.mp hv
  exact ⟨Int.natCast_nonneg _, Int.ofNat_lt.mpr (h.lt w hw)⟩

theorem evalNp_eq (hsplit : Splits split low high) {point : List ℤ}
    (hvalues : ∀ v ∈ values, Canonical v) (hpoint : ∀ r ∈ point, Fits64 r)
    (hlength : FoldLength values.length) :
    evalNp split values point = getItem (point.foldl (foldAt low high) values) 0 ∧
      ∀ v ∈ point.foldl (foldAt low high) values, Canonical v := by
  obtain ⟨words, hwords, hrepresents⟩ := represents_mapM hvalues
  obtain ⟨folded, hfolded, hfinal⟩ := hrepresents.foldlM hsplit hpoint hlength
  refine ⟨?_, fun v hv => hfinal.canonical hv⟩
  rw [evalNp, hwords]
  show (point.foldlM (roundNp split) words >>= fun work => do
    let first ← getItem work 0
    return (first.toNat : ℤ)) = _
  rw [hfolded, hfinal.values_eq]
  cases folded <;> rfl

end Evaluations

variable {point : List ℤ}

theorem mleEvalMsbNp_eq {values : List ℤ} (hvalues : ∀ v ∈ values, Canonical v)
    (hpoint : ∀ r ∈ point, Fits64 r) (hlength : FoldLength values.length) :
    mleEvalMsbNp values point = mleEvalMsb values point :=
  (evalNp_eq splits_halves hvalues hpoint hlength).1

theorem foldLsb_eq : foldLsb = foldAt (fun _ i => 2 * i) fun _ i => 2 * i + 1 := by
  funext work z
  rw [foldLsb, foldAt]
  refine List.map_congr_left fun i _ => ?_
  rw [emod_eq_emod_iff]
  push_cast [intCast_emod]
  rfl

theorem mleEvalLsbNp_eq {values : List ℤ} (hvalues : ∀ v ∈ values, Canonical v)
    (hpoint : ∀ r ∈ point, Fits64 r) (hlength : FoldLength values.length) :
    mleEvalLsbNp values point = mleEvalLsb values point := by
  obtain ⟨heval, hcanonical⟩ := evalNp_eq splits_evenOdd hvalues hpoint hlength
  have hvaluesEq : values.map (· % (goldilocksModulus : ℤ)) = values :=
    (List.map_congr_left fun v hv => (hvalues v hv).emod_eq).trans (List.map_id' values)
  rw [mleEvalLsbNp, mleEvalLsb, heval, hvaluesEq, foldLsb_eq]
  revert hcanonical
  cases point.foldl (foldAt (fun _ i => 2 * i) fun _ i => 2 * i + 1) values with
  | nil =>
    intro _
    rfl
  | cons v rest =>
    intro hcanonical
    exact congrArg Except.ok (hcanonical v List.mem_cons_self).emod_eq.symm

/-! ## Exactness -/

theorem eq_mod_of_isWord {w n : ℕ} (hw : Pcs.Compiled.IsWord w) (h : (w : F) = (n : F)) :
    w = n % goldilocksModulus := by
  have hmod := (ZMod.natCast_eq_natCast_iff' w n goldilocksModulus).mp h
  rwa [Nat.mod_eq_of_lt (show w < goldilocksModulus from hw)] at hmod

theorem canonical_foldl_foldMsb {work : List ℤ} (h : ∀ v ∈ work, Canonical v) :
    ∀ v ∈ point.foldl foldMsb work, Canonical v := by
  induction point generalizing work with
  | nil => exact h
  | cons r point ih =>
    refine ih fun v hv => ?_
    obtain ⟨i, -, rfl⟩ := List.mem_map.mp hv
    exact canonical_emod _

/-- The arithmetic on machine words is exact. The products of all words are canonical, of the arrays
and of the compiled verifier; sums and differences are canonical on canonical words; and the
evaluations on arrays of words are those on unbounded integers, for every vector of canonical values
whose length is a power of two and every point of words. -/
theorem wordArithmetic_exact :
    (∀ a b : UInt64, (glMulNp a b).toNat = a.toNat * b.toNat % goldilocksModulus) ∧
    (∀ a b, a < 2 ^ 64 → b < 2 ^ 64 → Pcs.Compiled.glcMul a b = a * b % goldilocksModulus) ∧
    (∀ a exp, a < 2 ^ 64 → Pcs.Compiled.glcPow a exp = a ^ exp % goldilocksModulus) ∧
    (∀ a b : UInt64, a.toNat < goldilocksModulus → b.toNat < goldilocksModulus →
      (glAddNp a b).toNat = (a.toNat + b.toNat) % goldilocksModulus ∧
      ((glSubNp a b).toNat : ℤ) = ((a.toNat : ℤ) - b.toNat) % goldilocksModulus) ∧
    (∀ a b, a < goldilocksModulus → b < goldilocksModulus →
      Pcs.Compiled.glcAdd a b = (a + b) % goldilocksModulus ∧
      (Pcs.Compiled.glcSub a b : ℤ) = ((a : ℤ) - b) % goldilocksModulus) ∧
    ∀ values point : List ℤ, (∃ k, values.length = 2 ^ k) → (∀ v ∈ values, Canonical v) →
      (∀ r ∈ point, Fits64 r) →
        mleEvalMsbNp values point = mleEvalMsb values point ∧
        mleEvalLsbNp values point = mleEvalLsb values point := by
  refine ⟨glMulNp_spec, ?_, ?_, ?_, ?_, ?_⟩
  · intro a b ha hb
    obtain ⟨hword, hcast⟩ := Pcs.Compiled.glcMul_spec ha hb
    exact eq_mod_of_isWord hword (by rw [hcast, Nat.cast_mul])
  · intro a exp ha
    obtain ⟨hword, hcast⟩ := Pcs.Compiled.glcPow_spec ha exp
    exact eq_mod_of_isWord hword (by rw [hcast, Nat.cast_pow])
  · intro a b ha hb
    exact ⟨glAddNp_spec ha hb, glSubNp_spec ha hb⟩
  · intro a b ha hb
    obtain ⟨haddWord, hadd⟩ := Pcs.Compiled.glcAdd_spec ha hb
    obtain ⟨hsubWord, hsub⟩ := Pcs.Compiled.glcSub_spec ha hb
    refine ⟨eq_mod_of_isWord haddWord (by rw [hadd, Nat.cast_add]), ?_⟩
    refine hsubWord.canonical.eq_emod_iff.mpr ?_
    push_cast
    exact hsub
  · intro values point hlength hvalues hpoint
    exact ⟨mleEvalMsbNp_eq hvalues hpoint (.inr hlength),
      mleEvalLsbNp_eq hvalues hpoint (.inr hlength)⟩

/-- The square of the largest word, and a vector of four entries. -/
theorem wordArithmetic_exact_sample :
    (glMulNp 0xFFFFFFFFFFFFFFFF 0xFFFFFFFFFFFFFFFF).toNat =
        (2 ^ 64 - 1) * (2 ^ 64 - 1) % goldilocksModulus ∧
      mleEvalMsbNp [1, 2, 3, 18446744069414584320] [5, 7] =
        mleEvalMsb [1, 2, 3, 18446744069414584320] [5, 7] ∧
      mleEvalLsbNp [1, 2, 3, 18446744069414584320] [5, 7] =
        mleEvalLsb [1, 2, 3, 18446744069414584320] [5, 7] := by
  obtain ⟨hmul, -, -, -, -, heval⟩ := wordArithmetic_exact
  refine ⟨hmul _ _, heval _ _ ⟨2, rfl⟩ ?_ ?_⟩
  · intro v hv
    simp only [List.mem_cons, List.not_mem_nil, or_false] at hv
    rcases hv with rfl | rfl | rfl | rfl <;> exact ⟨by norm_num, by norm_num [goldilocksModulus]⟩
  · intro r hr
    simp only [List.mem_cons, List.not_mem_nil, or_false] at hr
    rcases hr with rfl | rfl <;> exact ⟨by norm_num, by norm_num⟩

end Verathos.Numpy
