import Verathos.RateLimit.Limiter

/-!
# The rate limiter over whole runs

The limiter keeps for every key the part of its log that still counts, as long as no cleanup removes
a time that still counts for its own key. In such a run the limiter keeps its promises
(`respected_of_careful`). The cleanup runs with the window of the key that happens to be checked, so
a key with a short window makes it forget the requests of a key with a long one
(`shared_cleanup_forgets`).

* `Careful`: the runs in which cleanups remove only what does not count;
* `log` and `live_bucket`: the log of a key, and what the limiter keeps of it.
-/

namespace Verathos.RateLimit

open SlidingWindow

variable (c : Limits)

/-- The cleanup that a request runs, if one is due, removes only times that do not count for their
own key any more. -/
def CleansOnlyExpired (q : Request) (r : RateLimiter) : Prop :=
  r.Due q.now → ∀ key, IsStale (q.now - c.window q.key) (r.bucket key) →
    ∀ t ∈ r.bucket key, t ≤ q.now - c.window key

/-- No cleanup of the run removes a time that still counts. -/
def Careful (r : RateLimiter) (qs : List Request) : Prop :=
  ∀ before q rest, qs = before ++ q :: rest → CleansOnlyExpired c q (after c r before)

/-- The times at which a key is requested. -/
def timesOf (key : String) (qs : List Request) : List ℚ :=
  (qs.filter fun q => q.key = key).map Request.now

/-- The admitted times of a key, by its requests alone. -/
def log (key : String) (qs : List Request) : List ℚ :=
  (timesOf key qs).foldl (admitAt (c.limit key) (c.window key)) []

variable {c} {r : RateLimiter} {qs : List Request} {q : Request} {key : String}

/-! ## Runs by their last request -/

theorem after_append_singleton (c : Limits) (r : RateLimiter) (qs : List Request) (q : Request) :
    after c r (qs ++ [q]) = (check c q (after c r qs)).2 := by
  rw [after, List.foldl_append]
  rfl

theorem trace_append (c : Limits) (r : RateLimiter) (qs qs' : List Request) :
    trace c r (qs ++ qs') = trace c r qs ++ trace c (after c r qs) qs' := by
  induction qs generalizing r with
  | nil => rfl
  | cons q qs ih =>
    rw [List.cons_append, trace, ih, trace, List.cons_append]
    rfl

theorem trace_append_singleton (c : Limits) (r : RateLimiter) (qs : List Request) (q : Request) :
    trace c r (qs ++ [q]) = trace c r qs ++ [(q, (check c q (after c r qs)).1)] :=
  trace_append c r qs [q]

theorem Careful.of_append {qs' : List Request} (h : Careful c r (qs ++ qs')) : Careful c r qs := by
  intro before q rest heq
  refine h before q (rest ++ qs') ?_
  rw [heq, List.append_assoc, List.cons_append]

theorem timesOf_append_singleton (key : String) (qs : List Request) (q : Request) :
    timesOf key (qs ++ [q]) = if q.key = key then timesOf key qs ++ [q.now] else timesOf key qs := by
  rw [timesOf, List.filter_append, List.map_append]
  by_cases hkey : q.key = key <;> simp [hkey, timesOf]

theorem log_append_singleton (c : Limits) (key : String) (qs : List Request) (q : Request) :
    log c key (qs ++ [q]) =
      if q.key = key then admitAt (c.limit key) (c.window key) (log c key qs) q.now
      else log c key qs := by
  rw [log, timesOf_append_singleton]
  split_ifs
  · rw [List.foldl_append]
    rfl
  · rfl

theorem Timed.times (h : Timed qs) (key : String) : (timesOf key qs).Pairwise (· ≤ ·) := by
  rw [timesOf, List.pairwise_map]
  exact List.Pairwise.filter _ h

theorem mem_timesOf {t : ℚ} (h : t ∈ timesOf key qs) : ∃ q ∈ qs, q.now = t ∧ q.key = key := by
  obtain ⟨q, hq, rfl⟩ := List.mem_map.mp h
  rw [List.mem_filter, decide_eq_true_eq] at hq
  exact ⟨q, hq.1, rfl, hq.2⟩

/-! ## Buckets -/

theorem bucket_maintain (now window : ℚ) (r : RateLimiter) (key : String) :
    (r.maintain now window).bucket key =
      if r.Due now ∧ IsStale (now - window) (r.bucket key) then [] else r.bucket key := by
  unfold RateLimiter.maintain
  by_cases hdue : r.Due now
  · rw [if_pos hdue]
    change ((r.cleanup now window).buckets.get key).getD [] = _
    rw [RateLimiter.cleanup, OrderedDict.get_filter, RateLimiter.bucket]
    cases hget : r.buckets.get key with
    | none => simp
    | some timestamps =>
      by_cases hstale : IsStale (now - window) timestamps <;> simp [hdue, hstale, Option.filter]
  · rw [if_neg hdue, if_neg fun h => hdue h.1]

theorem bucket_check (c : Limits) (q : Request) (r : RateLimiter) (key : String) :
    (check c q r).2.bucket key =
      if q.key = key then
        admitAt (c.limit key) (c.window key)
          (live (c.window key) q.now ((r.maintain q.now (c.window key)).bucket key)) q.now
      else (r.maintain q.now (c.window q.key)).bucket key := by
  rw [check, checkMemory, RateLimiter.bucket, OrderedDict.get_set]
  by_cases hkey : q.key = key
  · subst hkey
    rw [if_pos rfl, if_pos rfl, Option.getD_some, admitAt, live_live le_rfl]
    -- the source asks whether the limit is reached, the log whether it is not
    by_cases hreached : c.limit q.key ≤
        ((live (c.window q.key) q.now
          ((r.maintain q.now (c.window q.key)).bucket q.key)).length : ℤ)
    · rw [if_neg (not_lt.mpr hreached)]
      exact if_pos hreached
    · rw [if_pos (not_le.mp hreached)]
      exact if_neg hreached
  · rw [if_neg fun h => hkey h.symm, if_neg hkey]
    rfl

theorem fst_check (c : Limits) (q : Request) (r : RateLimiter) :
    (check c q r).1 = answer (c.limit q.key) (c.window q.key) q.now
      (live (c.window q.key) q.now ((r.maintain q.now (c.window q.key)).bucket q.key)) := rfl

theorem CleansOnlyExpired.live_maintain (h : CleansOnlyExpired c q r) (key : String) {now : ℚ}
    (hnow : q.now ≤ now) :
    live (c.window key) now ((r.maintain q.now (c.window q.key)).bucket key) =
      live (c.window key) now (r.bucket key) := by
  rw [bucket_maintain]
  split_ifs with hremoved
  · -- nothing of the removed bucket counts
    symm
    rw [live, live, List.filter_nil, List.filter_eq_nil_iff]
    intro t ht
    have hle := h hremoved.1 key hremoved.2 t ht
    rw [decide_eq_true_eq, not_lt]
    linarith
  · rfl

theorem live_bucket {start : ℚ} (hcareful : Careful c (.init start) qs) (htimed : Timed qs)
    (key : String) {now : ℚ} (hnow : ∀ q ∈ qs, q.now ≤ now) :
    live (c.window key) now ((after c (.init start) qs).bucket key) =
      live (c.window key) now (log c key qs) := by
  induction qs using List.reverseRecOn generalizing now with
  | nil => rfl
  | append_singleton qs q ih =>
    have hq : q.now ≤ now := hnow q (by simp)
    have hbefore : ∀ q' ∈ qs, q'.now ≤ q.now := fun q' hq' =>
      (List.pairwise_append.mp htimed).2.2 q' hq' q (by simp)
    have hstep := hcareful qs q [] rfl
    have ih' {now : ℚ} := @ih hcareful.of_append (List.pairwise_append.mp htimed).1 now
    rw [after_append_singleton, bucket_check, log_append_singleton]
    split_ifs with hkey
    · subst hkey
      have hlive := (hstep.live_maintain q.key le_rfl).trans (ih' hbefore)
      rw [admitAt, admitAt, live_live le_rfl, hlive]
      split_ifs with hlt
      · rw [live_append, live_append, live_live hq]
      · rw [live_live hq]
    · rw [hstep.live_maintain key hq]
      exact ih' fun q' hq' => (hbefore q' hq').trans hq

theorem fst_check_eq {start : ℚ} (hcareful : Careful c (.init start) (qs ++ [q]))
    (htimed : Timed (qs ++ [q])) :
    (check c q (after c (.init start) qs)).1 =
      answer (c.limit q.key) (c.window q.key) q.now
        (live (c.window q.key) q.now (log c q.key qs)) := by
  have hbefore : ∀ q' ∈ qs, q'.now ≤ q.now := fun q' hq' =>
    (List.pairwise_append.mp htimed).2.2 q' hq' q (by simp)
  rw [fst_check, (hcareful qs q [] rfl).live_maintain q.key le_rfl,
    live_bucket hcareful.of_append (List.pairwise_append.mp htimed).1 q.key hbefore]

/-! ## Allowed requests -/

theorem answer_eq_ok {limit : ℤ} {window now : ℚ} {timestamps : List ℚ} {result : RateLimitResult}
    (h : answer limit window now timestamps = .ok result) :
    result.allowed = decide ((timestamps.length : ℤ) < limit) ∧
      (result.allowed = false → ∃ oldest rest, timestamps = oldest :: rest ∧
        result.retryAfter = max 1 (intOf (oldest - (now - window)) + 1)) := by
  unfold answer at h
  split_ifs at h with hreached
  · simp only [bind_eq_ok, getItem_eq_ok, pure_eq_ok] at h
    obtain ⟨oldest, holdest, rfl⟩ := h
    refine ⟨(decide_eq_false (not_lt.mpr hreached)).symm, fun _ => ?_⟩
    obtain ⟨rest, rfl⟩ : ∃ rest, timestamps = oldest :: rest := by
      cases timestamps with
      | nil => exact absurd holdest (by simp)
      | cons t rest => exact ⟨rest, by rw [Option.some.inj holdest]⟩
    exact ⟨oldest, rest, rfl, rfl⟩
  · obtain rfl := pure_eq_ok.mp h
    exact ⟨(decide_eq_true (not_le.mp hreached)).symm, fun hfalse => absurd hfalse (by simp)⟩

/-- A check always has an answer: a bucket that reaches a positive limit is not empty. -/
theorem exists_answer {limit : ℤ} (hlimit : 1 ≤ limit) (window now : ℚ) (timestamps : List ℚ) :
    ∃ result, answer limit window now timestamps = .ok result := by
  unfold answer
  split_ifs with hreached
  · cases timestamps with
    | nil =>
      rw [List.length_nil] at hreached
      omega
    | cons t rest => exact ⟨_, rfl⟩
  · exact ⟨_, rfl⟩

theorem isAllowed_answer {limit : ℤ} (hlimit : 1 ≤ limit) (window now : ℚ) (timestamps : List ℚ) :
    IsAllowed (q, answer limit window now timestamps) ↔ (timestamps.length : ℤ) < limit := by
  obtain ⟨result, hresult⟩ := exists_answer hlimit window now timestamps
  rw [hresult, IsAllowed, (answer_eq_ok hresult).1, decide_eq_true_eq]

theorem allowedTimes_trace {start : ℚ} (hcareful : Careful c (.init start) qs) (htimed : Timed qs)
    (key : String) : allowedTimes key (trace c (.init start) qs) = log c key qs := by
  induction qs using List.reverseRecOn with
  | nil => rfl
  | append_singleton qs q ih =>
    have ih := ih hcareful.of_append (List.pairwise_append.mp htimed).1
    rw [trace_append_singleton, log_append_singleton, fst_check_eq hcareful htimed]
    rw [allowedTimes] at ih ⊢
    rw [List.filter_append, List.map_append, ih, List.filter_singleton]
    have hallowed := isAllowed_answer (q := q) (c.limit_pos q.key) (c.window q.key) q.now
      (live (c.window q.key) q.now (log c q.key qs))
    by_cases hkey : q.key = key
    · subst hkey
      rw [if_pos rfl, admitAt]
      split_ifs with hlt
      · simp [hallowed.mpr hlt]
      · simp [mt hallowed.mp hlt]
    · simp [hkey]

theorem mem_log {t : ℚ} (h : t ∈ log c key qs) : ∃ q ∈ qs, q.now = t ∧ q.key = key :=
  mem_timesOf (mem_of_mem_foldl_admitAt h)

theorem length_live_log_le (htimed : Timed qs) (key : String) {now : ℚ}
    (hnow : ∀ q ∈ qs, q.now ≤ now) :
    ((live (c.window key) now (log c key qs)).length : ℤ) ≤ c.limit key := by
  have hlimit : 0 ≤ c.limit key := zero_le_one.trans (c.limit_pos key)
  have hbound := length_filter_foldl_admitAt_le hlimit (narrow_Ioc (c.window key) (now - c.window key))
    (htimed.times key)
  rw [sub_add_cancel] at hbound
  convert hbound using 3
  refine List.filter_congr fun t ht => ?_
  obtain ⟨q, hq, rfl, -⟩ := mem_log ht
  simp [hnow q hq]

theorem oldest_le {oldest now window : ℚ} :
    oldest ≤ now + (max 1 (intOf (oldest - (now - window)) + 1) : ℤ) - window := by
  have hmax : ((intOf (oldest - (now - window)) + 1 : ℤ) : ℚ) ≤
      (max 1 (intOf (oldest - (now - window)) + 1) : ℤ) := by
    exact_mod_cast le_max_right 1 _
  have hfloor : oldest - (now - window) ≤ (intOf (oldest - (now - window)) + 1 : ℤ) := by
    rw [intOf]
    push_cast
    split_ifs with hpos
    · exact (Int.lt_floor_add_one _).le
    · exact (Int.le_ceil _).trans (by linarith)
  linarith

/-- A denied request is allowed when it is repeated after `retry_after` and the key was not
requested in between. -/
theorem retry_of_careful {start : ℚ} (hcareful : Careful c (.init start) qs) (htimed : Timed qs)
    {before : List Request} {between : List Request} {q' : Request} {rest : List Request}
    {result : RateLimitResult} (heq : qs = before ++ q :: (between ++ q' :: rest))
    (hkey : q'.key = q.key) (hbetween : ∀ m ∈ between, m.key ≠ q.key)
    (hresult : (check c q (after c (.init start) before)).1 = .ok result)
    (hdenied : result.allowed = false) (hnow : q'.now = q.now + result.retryAfter) :
    ∃ result', (check c q' (after c (.init start) (before ++ q :: between))).1 = .ok result' ∧
      result'.allowed = true := by
  have hsplit : qs = (before ++ [q]) ++ (between ++ q' :: rest) := by simp [heq]
  have hsplit' : qs = (before ++ q :: between ++ [q']) ++ rest := by simp [heq]
  have hfirst : Careful c (.init start) (before ++ [q]) := by
    rw [hsplit] at hcareful
    exact hcareful.of_append
  have hsecond : Careful c (.init start) (before ++ q :: between ++ [q']) := by
    rw [hsplit'] at hcareful
    exact hcareful.of_append
  have htimed₁ : Timed (before ++ [q]) := by
    rw [hsplit] at htimed
    exact (List.pairwise_append.mp htimed).1
  have htimed₂ : Timed (before ++ q :: between ++ [q']) := by
    rw [hsplit'] at htimed
    exact (List.pairwise_append.mp htimed).1
  have hbefore : ∀ m ∈ before, m.now ≤ q.now := fun m hm =>
    (List.pairwise_append.mp htimed₁).2.2 m hm q (by simp)
  -- the denied request found a full window
  rw [fst_check_eq hfirst htimed₁] at hresult
  obtain ⟨hdecide, hretry⟩ := answer_eq_ok hresult
  obtain ⟨oldest, live', hlive, hafter⟩ := hretry hdenied
  have hfull : ((live (c.window q.key) q.now (log c q.key before)).length : ℤ) ≤ c.limit q.key :=
    length_live_log_le (List.pairwise_append.mp htimed₁).1 q.key hbefore
  rw [hlive, List.length_cons] at hfull
  -- nothing was added to the log of the key since
  have hlog : log c q'.key (before ++ q :: between) = log c q.key before := by
    have hnone : timesOf q.key between = [] := by
      rw [timesOf, List.map_eq_nil_iff, List.filter_eq_nil_iff]
      exact fun m hm => by simpa using hbetween m hm
    have htimes : timesOf q.key (before ++ q :: between) = timesOf q.key (before ++ [q]) := by
      rw [← List.singleton_append, ← List.append_assoc, timesOf, List.filter_append, List.map_append]
      change timesOf q.key (before ++ [q]) ++ timesOf q.key between = _
      rw [hnone, List.append_nil]
    rw [hkey, log, htimes]
    change log c q.key (before ++ [q]) = _
    rw [log_append_singleton, if_pos rfl, admitAt, if_neg]
    rw [hdenied] at hdecide
    exact of_decide_eq_false hdecide.symm
  rw [fst_check_eq hsecond htimed₂, hlog, hkey]
  obtain ⟨result', hresult'⟩ := exists_answer (c.limit_pos q.key) (c.window q.key) q'.now
    (live (c.window q.key) q'.now (log c q.key before))
  refine ⟨result', hresult', ?_⟩
  rw [(answer_eq_ok hresult').1, decide_eq_true_eq]
  -- the oldest time does not count any more
  have hle : q.now ≤ q'.now :=
    (List.pairwise_append.mp htimed₂).2.2 q (by simp) q' (by simp)
  have hold : ¬ q'.now - c.window q.key < oldest := by
    rw [not_lt, hnow, hafter]
    exact oldest_le
  rw [← live_live hle, hlive, live, List.filter_cons_of_neg (by simpa using hold)]
  have hlength := List.length_filter_le (fun t => decide (q'.now - c.window q.key < t)) live'
  push_cast at hfull
  omega

/-! ## The requests of one key -/

/-- A bucket has requested times only, in their order. -/
theorem bucket_sublist (c : Limits) (start : ℚ) (qs : List Request) (key : String) :
    ((after c (.init start) qs).bucket key).Sublist (timesOf key qs) := by
  induction qs using List.reverseRecOn with
  | nil => exact List.Sublist.refl _
  | append_singleton qs q ih =>
    have hmaintain (window : ℚ) :
        (((after c (.init start) qs).maintain q.now window).bucket key).Sublist
          (timesOf key qs) := by
      rw [bucket_maintain]
      split_ifs
      · exact List.nil_sublist _
      · exact ih
    rw [after_append_singleton, bucket_check, timesOf_append_singleton]
    split_ifs with hkey
    · have hlive : (live (c.window key) q.now
          (((after c (.init start) qs).maintain q.now (c.window key)).bucket key)).Sublist
            (timesOf key qs) := List.filter_sublist.trans (hmaintain _)
      rw [admitAt]
      split_ifs
      · exact hlive.append (List.Sublist.refl _)
      · exact hlive.trans (List.sublist_append_left _ _)
    · exact hmaintain _

/-- A bucket in order whose last time is before a cutoff has only such times. -/
theorem lt_of_isStale {cutoff : ℚ} {timestamps : List ℚ} (hsorted : timestamps.Pairwise (· ≤ ·))
    (hstale : IsStale cutoff timestamps) : ∀ t ∈ timestamps, t < cutoff := by
  intro t ht
  obtain ⟨front, last, rfl⟩ := (List.eq_nil_or_concat timestamps).resolve_left
    (List.ne_nil_of_mem ht)
  rw [List.concat_eq_append] at hsorted hstale ht
  have hstale : last < cutoff := by simpa [IsStale] using hstale
  rcases List.mem_append.mp ht with ht | ht
  · exact ((List.pairwise_append.mp hsorted).2.2 t ht last (by simp)).trans_lt hstale
  · rw [List.mem_singleton.mp ht]
    exact hstale

/-- Requests of one key are always careful: they clean up with their own window. -/
theorem careful_of_single (start : ℚ) (key : String) (htimed : Timed qs) (hsingle : ∀ q ∈ qs, q.key = key) :
    Careful c (.init start) qs := by
  intro before q rest heq hdue other hstale t ht
  have hq : q.key = key := hsingle q (by simp [heq])
  have hsub := bucket_sublist c start before other
  obtain ⟨q', hq', -, hother⟩ := mem_timesOf (hsub.subset ht)
  obtain rfl : key = other := (hsingle q' (by simp [heq, hq'])).symm.trans hother
  rw [heq] at htimed
  have hsorted := (Timed.times (List.pairwise_append.mp htimed).1 key).sublist hsub
  rw [hq] at hstale
  exact (lt_of_isStale hsorted hstale t ht).le

theorem isolated_of_careful {start : ℚ} (hcareful : Careful c (.init start) qs)
    (htimed : Timed qs) (key : String) :
    (trace c (.init start) qs).filter (fun a => a.1.key = key) =
      trace c (.init start) (qs.filter fun q => q.key = key) := by
  induction qs using List.reverseRecOn with
  | nil => rfl
  | append_singleton qs q ih =>
    have ih := ih hcareful.of_append (List.pairwise_append.mp htimed).1
    rw [trace_append_singleton, List.filter_append, ih, List.filter_append]
    by_cases hkey : q.key = key
    · have hsingle : (qs.filter fun q => q.key = key) ++ [q] =
          (qs ++ [q]).filter fun q => q.key = key := by
        rw [List.filter_append]
        simp [hkey]
      have htimed' : Timed ((qs.filter fun q => q.key = key) ++ [q]) := by
        rw [hsingle]
        exact List.Pairwise.filter _ htimed
      have hcareful' : Careful c (.init start) ((qs.filter fun q => q.key = key) ++ [q]) := by
        refine careful_of_single start key htimed' fun q' hq' => ?_
        rw [hsingle, List.mem_filter, decide_eq_true_eq] at hq'
        exact hq'.2
      have hlog : log c q.key (qs.filter fun q => q.key = key) = log c q.key qs := by
        rw [log, timesOf, hkey, List.filter_filter]
        simp [log, timesOf]
      rw [fst_check_eq hcareful htimed]
      rw [List.filter_cons_of_pos (by simpa using hkey), List.filter_nil,
        List.filter_cons_of_pos (by simpa using hkey), List.filter_nil, trace_append_singleton,
        fst_check_eq hcareful' htimed', hlog]
    · rw [List.filter_cons_of_neg (by simpa using hkey), List.filter_nil,
        List.filter_cons_of_neg (by simpa using hkey), List.filter_nil, List.append_nil,
        List.append_nil]

theorem respected_of_careful {start : ℚ} (hcareful : Careful c (.init start) qs)
    (htimed : Timed qs) : Respected c (.init start) qs where
  bounded key a := by
    have hlimit : 0 ≤ c.limit key := zero_le_one.trans (c.limit_pos key)
    rw [allowedTimes_trace hcareful htimed]
    exact ⟨length_filter_foldl_admitAt_le hlimit (narrow_Ico _ a) (htimed.times key),
      length_filter_foldl_admitAt_le hlimit (narrow_Ioc _ a) (htimed.times key)⟩
  retry _ _ _ _ _ _ heq hkey hbetween hresult hdenied hnow :=
    retry_of_careful hcareful htimed heq hkey hbetween hresult hdenied hnow
  isolated key := isolated_of_careful hcareful htimed key

/-! ## A cleanup that is not careful -/

theorem allowedTimes_append (key : String)
    (answered answered' : List (Request × Result RateLimitResult)) :
    allowedTimes key (answered ++ answered') =
      allowedTimes key answered ++ allowedTimes key answered' := by
  rw [allowedTimes, List.filter_append, List.map_append]
  rfl

/-- Requests at the time of the last cleanup are allowed until the bucket is full, by induction on
their number. -/
theorem allowedTimes_replicate (key : String) {now : ℚ} {held : ℕ} (count : ℕ)
    (hlast : r.lastCleanup = now) (hbucket : r.bucket key = List.replicate held now)
    (hcount : (held + count : ℤ) ≤ c.limit key) :
    allowedTimes key (trace c r (List.replicate count ⟨key, now⟩)) = List.replicate count now := by
  induction count generalizing r held with
  | zero => rfl
  | succ count ih =>
    have hdue : ¬ r.Due now := by
      rw [RateLimiter.Due, hlast, sub_self]
      norm_num [cleanupInterval]
    have hmaintain (window : ℚ) : r.maintain now window = r := if_neg hdue
    have hcounts : now - c.window key < now := sub_lt_self now (c.window_pos key)
    have hlive : live (c.window key) now (r.bucket key) = List.replicate held now := by
      rw [hbucket, live, List.filter_eq_self]
      intro t ht
      rw [List.eq_of_mem_replicate ht, decide_eq_true_eq]
      exact hcounts
    have hroom : ((List.replicate held now).length : ℤ) < c.limit key := by
      rw [List.length_replicate]
      push_cast at hcount
      omega
    have hbucket' : (check c ⟨key, now⟩ r).2.bucket key = List.replicate (held + 1) now := by
      rw [bucket_check, if_pos rfl, hmaintain, hlive, admitAt, ← hlive, live_live le_rfl, hlive,
        if_pos hroom, List.replicate_succ']
    have hlast' : (check c ⟨key, now⟩ r).2.lastCleanup = now := by
      change (r.maintain now (c.window key)).lastCleanup = now
      rw [hmaintain, hlast]
    have hanswer : IsAllowed (⟨key, now⟩, (check c ⟨key, now⟩ r).1) := by
      rw [fst_check, isAllowed_answer (c.limit_pos key), hmaintain, hlive]
      exact hroom
    rw [List.replicate_succ, trace, ← List.singleton_append, allowedTimes_append,
      ih hlast' hbucket' (by push_cast at hcount ⊢; omega), List.replicate_succ]
    simp [allowedTimes, hanswer]

/-- When a cleanup removes a time that still counts for its own key, filling the bucket anew exceeds
the limit of that key. -/
theorem not_respected_of_forgets {start : ℚ} (htimed : Timed (qs ++ [q]))
    (hcareful : Careful c (.init start) qs)
    (hforgets : ¬ CleansOnlyExpired c q (after c (.init start) qs)) :
    ∃ more, Timed (qs ++ q :: more) ∧ ¬ Respected c (.init start) (qs ++ q :: more) := by
  unfold CleansOnlyExpired at hforgets
  push Not at hforgets
  obtain ⟨hdue, key, hstale, t, ht, hlive⟩ := hforgets
  have htimed₁ : Timed qs := (List.pairwise_append.mp htimed).1
  have hbefore : ∀ q' ∈ qs, q'.now ≤ q.now := fun q' hq' =>
    (List.pairwise_append.mp htimed).2.2 q' hq' q (by simp)
  have hsub := bucket_sublist c start qs key
  -- a key that is cleaned up with its own window does not forget
  have hkey : q.key ≠ key := by
    rintro rfl
    exact absurd (lt_of_isStale ((htimed₁.times q.key).sublist hsub) hstale t ht) hlive.asymm
  have hlimit := c.limit_pos key
  set count := (c.limit key).toNat with hcount
  refine ⟨List.replicate count ⟨key, q.now⟩, ?_, fun hrespected => ?_⟩
  · rw [Timed, ← List.singleton_append, ← List.append_assoc, List.pairwise_append]
    refine ⟨htimed, List.pairwise_replicate.mpr (Or.inr le_rfl), fun a ha b hb => ?_⟩
    rw [List.eq_of_mem_replicate hb]
    rcases List.mem_append.mp ha with ha | ha
    · exact hbefore a ha
    · rw [List.mem_singleton.mp ha]
  · set R := after c (.init start) (qs ++ [q]) with hR
    have hafter : R = (check c q (after c (.init start) qs)).2 := after_append_singleton _ _ _ _
    have hempty : R.bucket key = List.replicate 0 q.now := by
      rw [hafter, bucket_check, if_neg hkey, bucket_maintain, if_pos ⟨hdue, hstale⟩]
      rfl
    have hlast : R.lastCleanup = q.now := by
      rw [hafter]
      change ((after c (.init start) qs).maintain q.now (c.window q.key)).lastCleanup = q.now
      rw [RateLimiter.maintain, if_pos hdue]
    have hrefill := allowedTimes_replicate (c := c) key count hlast hempty
      (by push_cast; omega)
    -- the forgotten time was allowed before
    have hmem : t ∈ allowedTimes key (trace c (.init start) qs) := by
      rw [allowedTimes_trace hcareful htimed₁]
      have hcounts : t ∈ live (c.window key) q.now ((after c (.init start) qs).bucket key) :=
        mem_live.mpr ⟨ht, hlive⟩
      rw [live_bucket hcareful htimed₁ key hbefore] at hcounts
      exact (mem_live.mp hcounts).1
    have htq : t ≤ q.now := by
      obtain ⟨q', hq', rfl, -⟩ := mem_timesOf (hsub.subset ht)
      exact hbefore q' hq'
    obtain ⟨-, hbound⟩ := hrespected.bounded key (q.now - c.window key)
    rw [← List.singleton_append, ← List.append_assoc, trace_append, trace_append,
      allowedTimes_append, allowedTimes_append, hrefill, List.filter_append, List.filter_append,
      sub_add_cancel, List.length_append, List.length_append] at hbound
    have hfull : ((List.replicate count q.now).filter fun t =>
        q.now - c.window key < t ∧ t ≤ q.now) = List.replicate count q.now := by
      rw [List.filter_eq_self]
      intro t' ht'
      rw [List.eq_of_mem_replicate ht', decide_eq_true_eq]
      exact ⟨sub_lt_self q.now (c.window_pos key), le_rfl⟩
    have hpos : 0 < ((allowedTimes key (trace c (.init start) qs)).filter fun t =>
        q.now - c.window key < t ∧ t ≤ q.now).length :=
      List.length_pos_of_mem (List.mem_filter.mpr ⟨hmem, decide_eq_true ⟨hlive, htq⟩⟩)
    rw [hfull, List.length_replicate] at hbound
    push_cast at hbound
    omega

/-- Whatever the limits, the limiter keeps its promises in every run whose cleanups remove only times
that do not count for their own key any more. A cleanup that removes another time can always be
followed by requests that exceed the limit of that key. -/
theorem rateLimiter_respected (c : Limits) (start : ℚ) :
    (∀ qs, Timed qs → Careful c (.init start) qs → Respected c (.init start) qs) ∧
    (∀ qs q, Timed (qs ++ [q]) → Careful c (.init start) qs →
      ¬ CleansOnlyExpired c q (after c (.init start) qs) →
        ∃ more, Timed (qs ++ q :: more) ∧ ¬ Respected c (.init start) (qs ++ q :: more)) :=
  ⟨fun _ htimed hcareful => respected_of_careful hcareful htimed,
    fun _ _ htimed hcareful hforgets => not_respected_of_forgets htimed hcareful hforgets⟩

/-- One request an hour for every key but `poll`, which may be requested every ten seconds. -/
def hourly : Limits where
  limit _ := 1
  window key := if key = "poll" then 10 else 3600
  limit_pos _ := le_rfl
  window_pos key := by split_ifs <;> norm_num

/-- A check of `poll` makes the limiter forget the request for `report` of eleven seconds ago. -/
theorem shared_cleanup_forgets :
    Timed [⟨"report", 50⟩, ⟨"poll", 61⟩, ⟨"report", 61⟩] ∧
      ¬ Respected hourly (.init 0) [⟨"report", 50⟩, ⟨"poll", 61⟩, ⟨"report", 61⟩] := by
  refine ⟨by decide, fun h => ?_⟩
  have hbound := (h.bounded "report" 50).1
  exact absurd hbound (by decide +kernel)

end Verathos.RateLimit
