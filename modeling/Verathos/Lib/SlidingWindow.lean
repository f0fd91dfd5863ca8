import Mathlib.Algebra.Order.Group.Defs
import Mathlib.Tactic

/-!
# Sliding windows

A sliding window admits a request when fewer than `limit` requests were admitted within the last
`window`. The log of the admitted times is all that it needs, and of the log only the times that
still count.

* `live`: the times that still count;
* `admitAt`: the log after a request;
* `length_filter_foldl_admitAt_le`: no stretch of time that is shorter than the window has more than
  `limit` admitted requests, for times that do not decrease.
-/

namespace SlidingWindow

variable {K : Type*} [AddCommGroup K] [LinearOrder K]

/-- The times that still count at `now`. -/
def live (window now : K) (log : List K) : List K := log.filter fun t => now - window < t

/-- The log after a request at `now`. -/
def admitAt (limit : ℤ) (window : K) (log : List K) (now : K) : List K :=
  if ((live window now log).length : ℤ) < limit then log ++ [now] else log

/-- A stretch of time: any two times in it are less than the window apart. -/
def Narrow (window : K) (P : K → Prop) : Prop := ∀ s t, P s → P t → s - window < t

theorem mem_live {window now t : K} {log : List K} :
    t ∈ live window now log ↔ t ∈ log ∧ now - window < t := by
  rw [live, List.mem_filter, decide_eq_true_eq]

theorem live_append (window now : K) (log log' : List K) :
    live window now (log ++ log') = live window now log ++ live window now log' :=
  List.filter_append ..

section

variable [IsOrderedAddMonoid K] {window : K}

theorem live_live {now now' : K} (h : now ≤ now') (log : List K) :
    live window now' (live window now log) = live window now' log := by
  rw [live, live, List.filter_filter]
  refine List.filter_congr fun t _ => ?_
  have hle : now - window ≤ now' - window := sub_le_sub_right h window
  rw [Bool.and_eq_left_iff_imp, decide_eq_true_eq, decide_eq_true_eq]
  exact hle.trans_lt

theorem narrow_Ico (window a : K) : Narrow window fun t => a ≤ t ∧ t < a + window :=
  fun _ _ hs ht => (sub_lt_iff_lt_add.mpr hs.2).trans_le ht.1

theorem narrow_Ioc (window a : K) : Narrow window fun t => a < t ∧ t ≤ a + window :=
  fun _ _ hs ht => (sub_le_iff_le_add.mpr hs.2).trans_lt ht.1

end

variable {limit : ℤ} {window : K}

/-- The log has requested times only. -/
theorem mem_of_mem_foldl_admitAt {times : List K} {t : K}
    (h : t ∈ times.foldl (admitAt limit window) []) : t ∈ times := by
  induction times using List.reverseRecOn with
  | nil => exact h
  | append_singleton times now ih =>
    rw [List.foldl_append, List.foldl_cons, List.foldl_nil, admitAt] at h
    rw [List.mem_append, List.mem_singleton]
    split_ifs at h
    · rw [List.mem_append, List.mem_singleton] at h
      exact h.imp_left ih
    · exact Or.inl (ih h)

theorem length_filter_foldl_admitAt_le (hlimit : 0 ≤ limit) {P : K → Prop} [DecidablePred P]
    (hP : Narrow window P) {times : List K} (htimes : times.Pairwise (· ≤ ·)) :
    (((times.foldl (admitAt limit window) []).filter P).length : ℤ) ≤ limit := by
  induction times using List.reverseRecOn with
  | nil => simpa using hlimit
  | append_singleton times now ih =>
    rw [List.pairwise_append] at htimes
    have hle := ih htimes.1
    rw [List.foldl_append, List.foldl_cons, List.foldl_nil, admitAt]
    set log := times.foldl (admitAt limit window) [] with hlog
    split_ifs with hlive
    · rw [List.filter_append]
      by_cases hnow : P now
      · -- what lies in the stretch with `now` still counts at `now`
        have hsub : (log.filter P).Sublist (live window now log) := by
          refine List.monotone_filter_right log fun t ht => ?_
          rw [decide_eq_true_eq] at ht ⊢
          exact hP now t hnow ht
        have hlength := hsub.length_le
        rw [List.length_append, List.filter_singleton, decide_eq_true hnow]
        simp only [cond_true, List.length_singleton]
        omega
      · simpa [List.filter_singleton, hnow] using hle
    · exact hle

end SlidingWindow
