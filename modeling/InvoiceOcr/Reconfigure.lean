/-
  File:      InvoiceOcr/Reconfigure.lean
  Subject:   LIVE RECONFIGURATION (src/utils/token_bucket.py, src/worker/rate_refresh.py): what is
             left of the rate limit when `update_config` changes it between two calls.

  * `TokenBucket.updateConfig` -- as the source has it: `_last` stays where it is, so the time
    since the last `acquire` is paid at the rate in force at the next one;
  * `inForce`, `grantsIn` -- the configurations a run has in force, its grants in a window;
  * `CreditsEarned` -- no `acquire` is credited more than was earned since the one before it;
  * **`window_grants_le`** -- then every window keeps to the largest burst in force and what the
    rates in force earn;
  * `creditsEarned_of_not_raised` -- rates that are never raised keep the condition;
  * **`raised_overfills`** -- a rate raised while the bucket is idle breaks the law.
-/
import InvoiceOcr.TokenBucket
import Mathlib.Data.Rat.Defs

namespace InvoiceOcr

/-- A call of one of the bucket's two methods. -/
inductive BucketCall (K : Type*) where
  | acquire
  | updateConfig (ratePerSecond : K) (burst : Nat)

namespace BucketCall

variable {K : Type*}

/-- The rate in force after the call. -/
def rateAfter (rate : K) : BucketCall K → K
  | .acquire => rate
  | .updateConfig ratePerSecond _ => ratePerSecond

/-- The burst in force after the call. -/
def burstAfter (burst : Nat) : BucketCall K → Nat
  | .acquire => burst
  | .updateConfig _ burst' => burst'

end BucketCall

namespace TokenBucket

variable {K : Type*} [Field K] [LinearOrder K]

/-- `update_config()`. -/
def updateConfig (bucket : TokenBucket K) (ratePerSecond : K) (burst : Nat) : TokenBucket K :=
  { bucket with
    rate := ratePerSecond
    capacity := burst
    tokens := min bucket.tokens (burst : K) }

/-- A call at time `now`: whether it is a grant, and the bucket after it. -/
def call (bucket : TokenBucket K) (now : K) : BucketCall K → Bool × TokenBucket K
  | .acquire => bucket.acquire now
  | .updateConfig ratePerSecond burst => (false, bucket.updateConfig ratePerSecond burst)

/-- The grants of a run at times within `[s, e]`. -/
def grantsIn (s e : K) (bucket : TokenBucket K) : List (K × BucketCall K) → Nat
  | [] => 0
  | (now, c) :: rest =>
    (if s ≤ now ∧ now ≤ e ∧ (bucket.call now c).1 then 1 else 0) +
      grantsIn s e (bucket.call now c).2 rest

/-- The configurations in force from `since` to `e`, one stretch between any two calls. -/
def inForce (e : K) (rate : K) (burst : Nat) (since : K) :
    List (K × BucketCall K) → List (Rate.Stretch K)
  | [] => [⟨rate, burst, since, e⟩]
  | (now, c) :: rest =>
    ⟨rate, burst, since, now⟩ :: inForce e (c.rateAfter rate) (c.burstAfter burst) now rest

/-- The calls come in the order of the clock, none before `since`. -/
def Ordered (since : K) (calls : List (K × BucketCall K)) : Prop :=
  (since :: calls.map Prod.fst).Pairwise (· ≤ ·)

/-- No configuration has a negative rate. -/
def RatesNonneg (calls : List (K × BucketCall K)) : Prop :=
  ∀ now ratePerSecond burst, (now, .updateConfig ratePerSecond burst) ∈ calls → 0 ≤ ratePerSecond

/-- Every `acquire` of the run pays the time since the one before it with no more than the rates in
    force have earned in it, unless what they have earned fills the bucket. `earned` is what they
    have earned up to `since`. -/
def CreditsEarned (bucket : TokenBucket K) (since earned : K) : List (K × BucketCall K) → Prop
  | [] => True
  | (now, .acquire) :: rest =>
    ((now - bucket.last) * bucket.rate ≤ earned + (now - since) * bucket.rate ∨
      (bucket.capacity : K) ≤ bucket.tokens + (earned + (now - since) * bucket.rate)) ∧
    CreditsEarned (bucket.acquire now).2 now 0 rest
  | (now, .updateConfig ratePerSecond burst) :: rest =>
    CreditsEarned (bucket.updateConfig ratePerSecond burst) now
      (earned + (now - since) * bucket.rate) rest

/-! ## What one call does -/

variable {bucket : TokenBucket K} {now since accrued s e : K} {c : BucketCall K}
  {rest : List (K × BucketCall K)}

theorem call_acquire : bucket.call now .acquire = bucket.acquire now := rfl

theorem call_updateConfig {ratePerSecond : K} {burst : Nat} :
    bucket.call now (.updateConfig ratePerSecond burst) =
      (false, bucket.updateConfig ratePerSecond burst) := rfl

theorem call_rate (bucket : TokenBucket K) (now : K) (c : BucketCall K) :
    (bucket.call now c).2.rate = c.rateAfter bucket.rate := by
  cases c with
  | acquire => exact acquire_rate
  | updateConfig ratePerSecond burst => rfl

theorem call_capacity (bucket : TokenBucket K) (now : K) (c : BucketCall K) :
    (bucket.call now c).2.capacity = c.burstAfter bucket.capacity := by
  cases c with
  | acquire => exact acquire_capacity
  | updateConfig ratePerSecond burst => rfl

/-- An `acquire` leaves, grant included, at most a full bucket. -/
theorem acquire_le_capacity (bucket : TokenBucket K) (now : K) :
    (if (bucket.acquire now).1 then 1 else 0 : K) + (bucket.acquire now).2.tokens ≤
      bucket.capacity := by
  rw [acquire_tokens, add_sub_cancel]
  exact min_le_left _ _

omit [Field K] in
theorem Ordered.le_head (h : Ordered since ((now, c) :: rest)) : since ≤ now :=
  (List.pairwise_cons.mp h).1 now (by simp)

omit [Field K] in
theorem Ordered.tail (h : Ordered since ((now, c) :: rest)) : Ordered now rest :=
  (List.pairwise_cons.mp h).2

theorem RatesNonneg.rateAfter (h : RatesNonneg ((now, c) :: rest)) {rate : K} (hrate : 0 ≤ rate) :
    0 ≤ c.rateAfter rate := by
  cases c with
  | acquire => exact hrate
  | updateConfig ratePerSecond burst => exact h now ratePerSecond burst (by simp)

theorem RatesNonneg.tail {x : K × BucketCall K} (h : RatesNonneg (x :: rest)) :
    RatesNonneg rest :=
  fun now ratePerSecond burst hmem => h now ratePerSecond burst (List.mem_cons_of_mem _ hmem)

/-- The grants of a run that has left the window behind. -/
theorem grantsIn_of_lt (hlt : e < now) {calls : List (K × BucketCall K)}
    (hordered : Ordered now calls) : grantsIn s e bucket calls = 0 := by
  induction calls generalizing bucket now with
  | nil => rfl
  | cons x rest ih =>
    obtain ⟨next, c⟩ := x
    have hnext : e < next := lt_of_lt_of_le hlt hordered.le_head
    unfold grantsIn
    rw [if_neg (fun h => absurd h.2.1 (not_le.mpr hnext)), ih hnext hordered.tail]

/-- What is left of the condition after a call. -/
theorem CreditsEarned.tail (h : CreditsEarned bucket since accrued ((now, c) :: rest)) :
    ∃ accrued', CreditsEarned (bucket.call now c).2 now accrued' rest := by
  cases c with
  | acquire => exact ⟨0, h.2⟩
  | updateConfig ratePerSecond burst => exact ⟨_, h⟩

/-- A call within the window. -/
theorem grantsIn_cons_inside (hs : s ≤ now) (he : now ≤ e) :
    (grantsIn s e bucket ((now, c) :: rest) : K) =
      (if (bucket.call now c).1 then 1 else 0) + grantsIn s e (bucket.call now c).2 rest := by
  rw [grantsIn]
  simp [hs, he]

/-- A call before the window. -/
theorem grantsIn_cons_before (hs : now < s) :
    grantsIn s e bucket ((now, c) :: rest) = grantsIn s e (bucket.call now c).2 rest := by
  rw [grantsIn, if_neg (fun h => absurd h.1 (not_le.mpr hs)), Nat.zero_add]

/-- A call after the window, and so all that come after it. -/
theorem grantsIn_cons_after (he : e < now) (hordered : Ordered since ((now, c) :: rest)) :
    grantsIn s e bucket ((now, c) :: rest) = 0 := by
  rw [grantsIn, if_neg (fun h => absurd h.2.1 (not_le.mpr he)), grantsIn_of_lt he hordered.tail]

theorem inForce_rate_nonneg {rate : K} {burst : Nat} {calls : List (K × BucketCall K)}
    (hrate : 0 ≤ rate) (hrates : RatesNonneg calls) :
    ∀ x ∈ inForce e rate burst since calls, 0 ≤ x.rate := by
  induction calls generalizing rate burst since with
  | nil => simpa [inForce] using hrate
  | cons x rest ih =>
    obtain ⟨now, c⟩ := x
    simp only [inForce, List.mem_cons, forall_eq_or_imp]
    exact ⟨hrate, ih (hrates.rateAfter hrate) hrates.tail⟩

/-! ## The window law -/

variable [IsStrictOrderedRing K]

/-- An `acquire` on earned credit leaves, grant included, at most what was there and was earned. -/
theorem acquire_le_earned
    (h : (now - bucket.last) * bucket.rate ≤ accrued ∨ (bucket.capacity : K) ≤ bucket.tokens + accrued) :
    (if (bucket.acquire now).1 then 1 else 0 : K) + (bucket.acquire now).2.tokens ≤
      bucket.tokens + accrued := by
  rw [acquire_tokens, add_sub_cancel]
  unfold refilled
  rw [min_le_iff]
  rcases h with hcredit | hfull
  · exact Or.inr (by linarith)
  · exact Or.inl hfull

/-- What every bucket of a run keeps: a balance that is not negative, a rate that is not negative,
    and a last refill in the past. -/
structure Sound (bucket : TokenBucket K) (now : K) : Prop where
  tokens : 0 ≤ bucket.tokens
  rate : 0 ≤ bucket.rate
  last : bucket.last ≤ now

theorem Sound.refilled_nonneg (h : Sound bucket since) (hnow : since ≤ now) :
    0 ≤ bucket.refilled now := by
  have hgain : 0 ≤ (now - bucket.last) * bucket.rate :=
    mul_nonneg (by linarith [h.last]) h.rate
  have htokens := h.tokens
  unfold refilled
  exact le_min (Nat.cast_nonneg _) (by linarith)

theorem Sound.call (h : Sound bucket since) (hnow : since ≤ now)
    (hrate : 0 ≤ c.rateAfter bucket.rate) : Sound (bucket.call now c).2 now := by
  refine ⟨?_, by rwa [call_rate], ?_⟩
  · cases c with
    | acquire =>
      show 0 ≤ (bucket.acquire now).2.tokens
      rw [acquire_tokens, acquire_granted, sub_nonneg]
      by_cases hroom : 1 ≤ bucket.refilled now
      · simp [hroom]
      · simpa [hroom] using h.refilled_nonneg hnow
    | updateConfig ratePerSecond burst => exact le_min h.tokens (Nat.cast_nonneg burst)
  · cases c with
    | acquire => exact le_of_eq acquire_last
    | updateConfig ratePerSecond burst => exact le_trans h.last hnow

theorem earned_inForce_nonneg {rate : K} {burst : Nat} {calls : List (K × BucketCall K)}
    (hrate : 0 ≤ rate) (hrates : RatesNonneg calls) :
    0 ≤ Rate.earned s e (inForce e rate burst since calls) :=
  Rate.earned_nonneg (inForce_rate_nonneg hrate hrates)

/-- **Once an `acquire` has settled the bucket within the window**, what is granted from then on was
    there, or was earned since, or will be. -/
theorem grantsIn_le_credit {calls : List (K × BucketCall K)} (hs : s ≤ since)
    (hsound : Sound bucket since) (haccrued : 0 ≤ accrued) (hordered : Ordered since calls)
    (hrates : RatesNonneg calls) (hcredits : CreditsEarned bucket since accrued calls) :
    (grantsIn s e bucket calls : K) ≤ bucket.tokens + accrued +
      Rate.earned s e (inForce e bucket.rate bucket.capacity since calls) := by
  have htokens := hsound.tokens
  have hearned : 0 ≤ Rate.earned s e (inForce e bucket.rate bucket.capacity since calls) :=
    earned_inForce_nonneg hsound.rate hrates
  induction calls generalizing bucket since accrued with
  | nil =>
    simp only [grantsIn, Nat.cast_zero]
    linarith
  | cons x rest ih =>
    obtain ⟨now, c⟩ := x
    have hnow := hordered.le_head
    have hrate := hrates.rateAfter hsound.rate
    have hsound' := hsound.call hnow hrate
    rcases lt_or_ge e now with hafter | hinside
    · rw [grantsIn_cons_after hafter hordered, Nat.cast_zero]
      linarith
    · have hgain : 0 ≤ (now - since) * bucket.rate := mul_nonneg (by linarith) hsound.rate
      have hwithin : (⟨bucket.rate, bucket.capacity, since, now⟩ : Rate.Stretch K).within s e =
          now - since := Rate.Stretch.within_of_inside hs hnow hinside
      have hlater : 0 ≤ Rate.earned s e (inForce e (bucket.call now c).2.rate
          (bucket.call now c).2.capacity now rest) :=
        earned_inForce_nonneg hsound'.rate hrates.tail
      rw [grantsIn_cons_inside (le_trans hs hnow) hinside, inForce, Rate.earned_cons, hwithin,
        ← call_rate bucket now c, ← call_capacity bucket now c]
      cases c with
      | acquire =>
        have hpaid := acquire_le_earned hcredits.1
        have hrest := ih (le_trans hs hnow) hsound' (le_refl 0) hordered.tail hrates.tail
          hcredits.2 hsound'.tokens hlater
        rw [call_acquire] at hrest ⊢
        linarith
      | updateConfig ratePerSecond burst =>
        have hclamp : (bucket.updateConfig ratePerSecond burst).tokens ≤ bucket.tokens :=
          min_le_left _ _
        have hrest := ih (le_trans hs hnow) hsound' (add_nonneg haccrued hgain) hordered.tail
          hrates.tail hcredits hsound'.tokens hlater
        rw [call_updateConfig] at hrest ⊢
        simp only [Bool.false_eq_true, if_false]
        linarith

/-- **The window law, up to the first `acquire` in the window**: the bucket is at most full. -/
theorem grantsIn_le_ceiling {calls : List (K × BucketCall K)} (hsound : Sound bucket since)
    (hordered : Ordered since calls) (hrates : RatesNonneg calls)
    (hcredits : CreditsEarned bucket since accrued calls) :
    (grantsIn s e bucket calls : K) ≤
      Rate.ceiling s e (inForce e bucket.rate bucket.capacity since calls) +
        Rate.earned s e (inForce e bucket.rate bucket.capacity since calls) := by
  have hearned : 0 ≤ Rate.earned s e (inForce e bucket.rate bucket.capacity since calls) :=
    earned_inForce_nonneg hsound.rate hrates
  induction calls generalizing bucket since accrued with
  | nil =>
    simp only [grantsIn, Nat.cast_zero]
    positivity
  | cons x rest ih =>
    obtain ⟨now, c⟩ := x
    have hnow := hordered.le_head
    have hrate := hrates.rateAfter hsound.rate
    have hsound' := hsound.call hnow hrate
    have hlater : 0 ≤ Rate.earned s e (inForce e (bucket.call now c).2.rate
        (bucket.call now c).2.capacity now rest) :=
      earned_inForce_nonneg hsound'.rate hrates.tail
    obtain ⟨accrued', hcredits'⟩ := hcredits.tail
    have hrest := ih hsound' hordered.tail hrates.tail hcredits' hlater
    have hgain : 0 ≤ bucket.rate * (⟨bucket.rate, bucket.capacity, since, now⟩ :
        Rate.Stretch K).within s e := mul_nonneg hsound.rate (Rate.Stretch.within_nonneg _ s e)
    rcases lt_or_ge e now with hafter | he
    · rw [grantsIn_cons_after hafter hordered, Nat.cast_zero]
      positivity
    rw [inForce, Rate.earned_cons, ← call_rate bucket now c, ← call_capacity bucket now c]
    have hgrow : (Rate.ceiling s e (inForce e (bucket.call now c).2.rate
        (bucket.call now c).2.capacity now rest) : K) ≤
        Rate.ceiling s e (⟨bucket.rate, bucket.capacity, since, now⟩ :: inForce e
          (bucket.call now c).2.rate (bucket.call now c).2.capacity now rest) :=
      Nat.cast_le.mpr Rate.ceiling_le_cons
    rcases lt_or_ge now s with hbefore | hs
    · rw [grantsIn_cons_before hbefore]
      linarith
    rw [grantsIn_cons_inside hs he]
    cases c with
    | acquire =>
      -- the first `acquire` in the window finds at most the burst in force, and settles the bucket
      have hfull : (bucket.capacity : K) ≤ Rate.ceiling s e
          (⟨bucket.rate, bucket.capacity, since, now⟩ :: inForce e (bucket.call now .acquire).2.rate
            (bucket.call now .acquire).2.capacity now rest) :=
        Nat.cast_le.mpr (Rate.le_ceiling_cons (x := ⟨bucket.rate, bucket.capacity, since, now⟩)
          ⟨le_trans hnow he, hs⟩)
      have hpaid := acquire_le_capacity bucket now
      have hcredit := grantsIn_le_credit (e := e) hs hsound' (le_refl 0) hordered.tail hrates.tail
        hcredits.2
      rw [call_acquire] at hfull hcredit ⊢
      linarith
    | updateConfig ratePerSecond burst =>
      rw [call_updateConfig] at hgrow hrest ⊢
      simp only [Bool.false_eq_true, if_false]
      linarith

/-- **Live reconfiguration keeps the rate limit** of every window, in every run whose calls of
    `acquire` are credited no more than was earned. -/
theorem window_grants_le {r : K} {burst : Nat} {start : K} {calls : List (K × BucketCall K)}
    (hr : 0 ≤ r) (hrates : RatesNonneg calls) (hordered : Ordered start calls)
    (hcredits : CreditsEarned (init r burst start) start 0 calls) (s e : K) :
    (grantsIn s e (init r burst start) calls : K) ≤
      Rate.ceiling s e (inForce e r burst start calls) +
        Rate.earned s e (inForce e r burst start calls) :=
  grantsIn_le_ceiling ⟨Nat.cast_nonneg burst, hr, le_refl start⟩ hordered hrates hcredits

/-- No configuration raises the rate in force. -/
def NotRaised (rate : K) : List (K × BucketCall K) → Prop
  | [] => True
  | (_, c) :: rest => c.rateAfter rate ≤ rate ∧ NotRaised (c.rateAfter rate) rest

/-- Rates that are never raised earn at least what an `acquire` pays for them. -/
theorem creditsEarned_of_not_raised {calls : List (K × BucketCall K)}
    (hpast : bucket.last ≤ since) (hearned : (since - bucket.last) * bucket.rate ≤ accrued)
    (hordered : Ordered since calls) (hraised : NotRaised bucket.rate calls) :
    CreditsEarned bucket since accrued calls := by
  induction calls generalizing bucket since accrued with
  | nil => trivial
  | cons x rest ih =>
    obtain ⟨now, c⟩ := x
    have hnow := hordered.le_head
    have hpaid : (now - bucket.last) * bucket.rate ≤ accrued + (now - since) * bucket.rate := by
      linarith
    cases c with
    | acquire =>
      refine ⟨Or.inl hpaid, ih (le_of_eq acquire_last) ?_ hordered.tail ?_⟩
      · simp
      · rw [acquire_rate]
        exact hraised.2
    | updateConfig ratePerSecond burst =>
      refine ih (le_trans hpast hnow) ?_ hordered.tail hraised.2
      have hlower : (now - bucket.last) * ratePerSecond ≤ (now - bucket.last) * bucket.rate :=
        mul_le_mul_of_nonneg_left hraised.1 (by linarith)
      exact le_trans hlower hpaid

/-- Two calls at once, the rate lowered a second later, a third call after another second. -/
theorem window_grants_lowered :
    (grantsIn (0 : ℚ) 2 (init 2 2 0)
      [(0, .acquire), (0, .acquire), (1, .updateConfig 1 2), (2, .acquire)] : ℚ) ≤
      Rate.ceiling 0 2 (inForce 2 2 2 0
        [(0, .acquire), (0, .acquire), (1, .updateConfig 1 2), (2, .acquire)]) +
      Rate.earned 0 2 (inForce 2 2 2 0
        [(0, .acquire), (0, .acquire), (1, .updateConfig 1 2), (2, .acquire)]) := by
  have hordered : Ordered (0 : ℚ)
      [(0, .acquire), (0, .acquire), (1, .updateConfig 1 2), (2, .acquire)] := by
    unfold Ordered
    decide +kernel
  refine window_grants_le (by norm_num) ?_ hordered (creditsEarned_of_not_raised ?_ ?_ hordered ?_) 0 2
  · intro now ratePerSecond burst hmem
    simp only [List.mem_cons, Prod.mk.injEq, reduceCtorEq, and_false, BucketCall.updateConfig.injEq,
      List.not_mem_nil, or_false, false_or] at hmem
    rw [hmem.2.1]
    norm_num
  · exact le_refl _
  · simp [init]
  · simp [NotRaised, BucketCall.rateAfter, init]

/-- **A rate raised while the bucket is idle breaks the law**: two tokens at one a second are spent
    at 0, the rate is doubled at 1, and the second that was earned at one a second is paid at two. -/
theorem raised_overfills :
    ¬ ∀ (r : ℚ) (burst : Nat) (start : ℚ) (calls : List (ℚ × BucketCall ℚ)), 0 ≤ r →
      RatesNonneg calls → Ordered start calls → ∀ s e : ℚ,
      (grantsIn s e (init r burst start) calls : ℚ) ≤
        Rate.ceiling s e (inForce e r burst start calls) +
          Rate.earned s e (inForce e r burst start calls) := by
  intro h
  have hrun := h 1 2 0
    [(0, .acquire), (0, .acquire), (1, .updateConfig 2 2), (1, .acquire), (1, .acquire)]
    (by norm_num) ?_ (by unfold Ordered; decide +kernel) 0 1
  · revert hrun
    decide +kernel
  · intro now ratePerSecond burst hmem
    simp only [List.mem_cons, Prod.mk.injEq, reduceCtorEq, and_false, BucketCall.updateConfig.injEq,
      List.not_mem_nil, or_false, false_or] at hmem
    rw [hmem.2.1]
    norm_num

end TokenBucket

end InvoiceOcr
