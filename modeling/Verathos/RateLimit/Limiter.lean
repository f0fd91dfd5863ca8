import Verathos.Basic
import Verathos.Lib.OrderedDict
import Verathos.Lib.SlidingWindow

/-!
# The in-memory rate limiter

A translation of the in-memory backend of `RateLimiter` of `neurons/rate_limit.py`. Clock readings
are exact rationals. A call that raises may have changed the limiter, so a call gives both its
answer and the limiter after it.
-/

namespace Verathos.RateLimit

structure RateLimitResult where
  allowed : Bool
  remaining : ℤ
  retryAfter : ℤ
deriving DecidableEq

/-- The in-memory state of a `RateLimiter`. -/
structure RateLimiter where
  buckets : OrderedDict String (List ℚ)
  lastCleanup : ℚ

def cleanupInterval : ℚ := 60

/-- `__init__` when the clock reads `now`. -/
def RateLimiter.init (now : ℚ) : RateLimiter := ⟨.empty, now⟩

/-- `self._buckets[key]`, a `defaultdict`. -/
def RateLimiter.bucket (r : RateLimiter) (key : String) : List ℚ := (r.buckets.get key).getD []

/-- `int(x)`. -/
def intOf (x : ℚ) : ℤ := if 0 ≤ x then ⌊x⌋ else ⌈x⌉

/-- A bucket that `_cleanup` removes: `not ts or ts[-1] < cutoff`. -/
def IsStale (cutoff : ℚ) (timestamps : List ℚ) : Prop :=
  timestamps.getLast?.all (fun last => last < cutoff) = true

instance (cutoff : ℚ) (timestamps : List ℚ) : Decidable (IsStale cutoff timestamps) :=
  inferInstanceAs (Decidable (_ = true))

def RateLimiter.cleanup (now defaultWindow : ℚ) (r : RateLimiter) : RateLimiter :=
  { r with buckets := r.buckets.filter fun item => ¬ IsStale (now - defaultWindow) item.2 }

/-- A cleanup is due. -/
def RateLimiter.Due (r : RateLimiter) (now : ℚ) : Prop := now - r.lastCleanup > cleanupInterval

instance (r : RateLimiter) (now : ℚ) : Decidable (r.Due now) := inferInstanceAs (Decidable (_ > _))

/-- The periodic cleanup, which runs with the window of the key that is checked. -/
def RateLimiter.maintain (now window : ℚ) (r : RateLimiter) : RateLimiter :=
  if r.Due now then { r.cleanup now window with lastCleanup := now } else r

/-- The answer for a key whose pruned bucket is `timestamps`. -/
def answer (limit : ℤ) (window now : ℚ) (timestamps : List ℚ) : Result RateLimitResult :=
  if (timestamps.length : ℤ) ≥ limit then do
    let oldest ← getItem timestamps 0
    let retryAfter := intOf (oldest - (now - window)) + 1
    return { allowed := false, remaining := 0, retryAfter := max 1 retryAfter }
  else return { allowed := true, remaining := limit - (timestamps.length + 1), retryAfter := 0 }

/-- `_check_memory` when the clock reads `now`: the answer, and the limiter after the call. -/
def checkMemory (key : String) (limit : ℤ) (window now : ℚ) (r : RateLimiter) :
    Result RateLimitResult × RateLimiter :=
  let r := r.maintain now window
  let timestamps := (r.bucket key).filter fun t => now - window < t
  let kept := if (timestamps.length : ℤ) ≥ limit then timestamps else timestamps ++ [now]
  (answer limit window now timestamps, { r with buckets := r.buckets.set key kept })

/-! ## Runs -/

/-- Every key with its own limit and window. -/
structure Limits where
  limit : String → ℤ
  window : String → ℚ
  limit_pos : ∀ key, 1 ≤ limit key
  window_pos : ∀ key, 0 < window key

/-- A call of `check` for a key at a reading of the clock. -/
structure Request where
  key : String
  now : ℚ
deriving DecidableEq

variable (c : Limits)

/-- `check` with the limit and window of the key. -/
def check (q : Request) (r : RateLimiter) : Result RateLimitResult × RateLimiter :=
  checkMemory q.key (c.limit q.key) (c.window q.key) q.now r

/-- The limiter after requests. -/
def after (r : RateLimiter) (qs : List Request) : RateLimiter :=
  qs.foldl (fun r q => (check c q r).2) r

/-- The requests with their answers. -/
def trace : RateLimiter → List Request → List (Request × Result RateLimitResult)
  | _, [] => []
  | r, q :: qs => (q, (check c q r).1) :: trace (check c q r).2 qs

/-- A request was allowed. -/
def IsAllowed : Request × Result RateLimitResult → Prop
  | (_, .ok result) => result.allowed = true
  | (_, .error _) => False

instance : DecidablePred IsAllowed
  | (_, .ok result) => inferInstanceAs (Decidable (result.allowed = true))
  | (_, .error _) => .isFalse id

/-- The times of the allowed requests of a key. -/
def allowedTimes (key : String) (answered : List (Request × Result RateLimitResult)) : List ℚ :=
  (answered.filter fun a => a.1.key = key ∧ IsAllowed a).map fun a => a.1.now

/-- Clock readings do not decrease. -/
def Timed (qs : List Request) : Prop := qs.Pairwise fun q q' => q.now ≤ q'.now

instance (qs : List Request) : Decidable (Timed qs) :=
  inferInstanceAs (Decidable (List.Pairwise _ qs))

/-- What a rate limit promises of a run. -/
structure Respected (r : RateLimiter) (qs : List Request) : Prop where
  /-- No half-open interval of the length of its window has more allowed requests of a key than its
  limit. -/
  bounded : ∀ key a,
    (((allowedTimes key (trace c r qs)).filter fun t =>
      a ≤ t ∧ t < a + c.window key).length : ℤ) ≤ c.limit key ∧
    (((allowedTimes key (trace c r qs)).filter fun t =>
      a < t ∧ t ≤ a + c.window key).length : ℤ) ≤ c.limit key
  /-- A denied request is allowed when it is repeated after `retry_after`. -/
  retry : ∀ before q between q' rest result,
    qs = before ++ q :: (between ++ q' :: rest) → q'.key = q.key →
    (∀ m ∈ between, m.key ≠ q.key) →
    (check c q (after c r before)).1 = .ok result → result.allowed = false →
    q'.now = q.now + result.retryAfter →
      ∃ result', (check c q' (after c r (before ++ q :: between))).1 = .ok result' ∧
        result'.allowed = true
  /-- The answers for a key are those that its requests alone would get. -/
  isolated : ∀ key, (trace c r qs).filter (fun a => a.1.key = key) =
    trace c r (qs.filter fun q => q.key = key)

end Verathos.RateLimit
