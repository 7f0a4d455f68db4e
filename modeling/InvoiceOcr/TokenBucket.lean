/-
  File:      InvoiceOcr/TokenBucket.lean
  Subject:   THE TOKEN BUCKET (src/utils/token_bucket.py), in exact arithmetic over any ordered
             field.

  * `TokenBucket`, `acquire` -- as the source has them; the lock makes a call one step;
  * `TokenBucket.calls`, `granted` -- a bucket under calls at given times;
  * `calls_level` -- the balance of the bucket is the clamped balance of Rate/Limiter.lean;
  * **`bucket_granted_iff`** -- a call is granted exactly when every window has room for it.
-/
import InvoiceOcr.Rate.Limiter

namespace InvoiceOcr

/-- `TokenBucket` without its lock. -/
structure TokenBucket (K : Type*) where
  rate : K
  capacity : Nat
  tokens : K
  last : K

namespace TokenBucket

variable {K : Type*} [Field K] [LinearOrder K]

/-- `TokenBucket(rate_per_second, burst)` at time `now`. -/
def init (ratePerSecond : K) (burst : Nat) (now : K) : TokenBucket K where
  rate := ratePerSecond
  capacity := burst
  tokens := burst
  last := now

/-- The balance `acquire` looks at. -/
def refilled (bucket : TokenBucket K) (now : K) : K :=
  min (bucket.capacity : K) (bucket.tokens + (now - bucket.last) * bucket.rate)

/-- `acquire()` at time `now`. -/
def acquire (bucket : TokenBucket K) (now : K) : Bool × TokenBucket K :=
  let tokens := bucket.refilled now
  if 1 ≤ tokens then (true, { bucket with tokens := tokens - 1, last := now })
  else (false, { bucket with tokens, last := now })

variable (bucket : TokenBucket K) (t : Nat → K)

/-- The bucket after `n` calls, call `i` at time `t i`. -/
def calls : Nat → TokenBucket K
  | 0 => bucket
  | n + 1 => ((calls n).acquire (t n)).2

/-- The answer to call `n`. -/
def granted (n : Nat) : Bool := ((bucket.calls t n).acquire (t n)).1

/-! ## What one call does -/

variable {bucket : TokenBucket K} {now : K}

theorem acquire_granted : (bucket.acquire now).1 = decide (1 ≤ bucket.refilled now) := by
  unfold acquire
  by_cases h : 1 ≤ bucket.refilled now <;> simp [h]

theorem acquire_tokens : (bucket.acquire now).2.tokens =
    bucket.refilled now - if (bucket.acquire now).1 then 1 else 0 := by
  unfold acquire
  by_cases h : 1 ≤ bucket.refilled now <;> simp [h]

@[simp] theorem acquire_last : (bucket.acquire now).2.last = now := by
  unfold acquire
  by_cases h : 1 ≤ bucket.refilled now <;> simp [h]

@[simp] theorem acquire_rate : (bucket.acquire now).2.rate = bucket.rate := by
  unfold acquire
  by_cases h : 1 ≤ bucket.refilled now <;> simp [h]

@[simp] theorem acquire_capacity : (bucket.acquire now).2.capacity = bucket.capacity := by
  unfold acquire
  by_cases h : 1 ≤ bucket.refilled now <;> simp [h]

/-! ## The limiter -/

variable {r : K} {burst : Nat} {start : K} {t : Nat → K}

theorem calls_rate (n : Nat) : ((init r burst start).calls t n).rate = r := by
  induction n with
  | zero => rfl
  | succ n ih => simpa [calls] using ih

theorem calls_capacity (n : Nat) : ((init r burst start).calls t n).capacity = burst := by
  induction n with
  | zero => rfl
  | succ n ih => simpa [calls] using ih

variable [IsStrictOrderedRing K]

/-- **The balance a call finds** is the clamped balance of the limiter. -/
theorem calls_level (hr : 0 ≤ r) (hstart : start ≤ t 0) (n : Nat) :
    ((init r burst start).calls t n).refilled (t n) =
      Rate.level (burst : K) r t ((init r burst start).granted t) n := by
  induction n with
  | zero =>
    have hgain : 0 ≤ (t 0 - start) * r := mul_nonneg (by linarith) hr
    show min (burst : K) (burst + (t 0 - start) * r) = burst
    rw [min_eq_left]
    linarith
  | succ n ih =>
    have htokens : ((init r burst start).calls t (n + 1)).tokens =
        ((init r burst start).calls t n).refilled (t n) -
          if (init r burst start).granted t n then 1 else 0 := acquire_tokens
    have hlast : ((init r burst start).calls t (n + 1)).last = t n := acquire_last
    unfold refilled
    rw [calls_rate, calls_capacity, htokens, hlast, ih, mul_comm]
    rfl

/-- **`acquire` is exactly the limiter** of `burst` and `rate`: call `n` is granted if and only if
    every window back from it has room for one more, and no window is ever overfilled. -/
theorem bucket_granted_iff (hr : 0 ≤ r) (hstart : start ≤ t 0) (n : Nat)
    (ht : ∀ i < n, t i ≤ t (i + 1)) :
    ((init r burst start).granted t n = true ↔
      ∀ k ≤ n, (Rate.grants ((init r burst start).granted t) k n : K) + 1 ≤
        burst + r * (t n - t k)) ∧
    ∀ k ≤ n, (Rate.grants ((init r burst start).granted t) k (n + 1) : K) ≤
      burst + r * (t n - t k) := by
  have hlevel : ∀ i, (init r burst start).granted t i = true ↔
      1 ≤ Rate.level (burst : K) r t ((init r burst start).granted t) i := by
    intro i
    unfold granted
    rw [acquire_granted, decide_eq_true_iff, calls_level hr hstart]
    rfl
  refine ⟨?_, fun k hk => ?_⟩
  · rw [hlevel, Rate.le_level_iff]
    exact forall₂_congr fun k _ => by rw [add_comm]
  · exact Rate.window_le (Nat.cast_nonneg burst) hr ht (fun i _ => (hlevel i).mp) hk

/-- A bucket of one token at two a second, called every quarter of a second. -/
theorem bucket_granted_half :
    ((init (2 : ℚ) 1 0).granted (fun n => (n : ℚ) / 4) 2 = true ↔
      ∀ k ≤ 2, (Rate.grants ((init (2 : ℚ) 1 0).granted fun n => (n : ℚ) / 4) k 2 : ℚ) + 1 ≤
        (1 : ℕ) + 2 * ((2 : ℕ) / 4 - (k : ℚ) / 4)) := by
  refine (bucket_granted_iff (by norm_num) (by norm_num) 2 fun i _ => ?_).1
  push_cast
  linarith

end TokenBucket

end InvoiceOcr
