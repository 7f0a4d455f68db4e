/-
  File:      InvoiceOcr/Rate/Limiter.lean
  Subject:   CLAMPED BALANCES AND WINDOWS. A balance that fills at a rate, is clamped at a capacity
             and pays one for each grant, against the law that speaks of all windows at once.
             Nothing here names a program.

  * `grants` -- the grants among the calls `k, …, n - 1`;
  * `level` -- the balance a call finds;
  * **`le_level_iff`** -- the balance is at least `x` exactly when every window back from the call
    has room for `x`: the clamp is a minimum over all earlier calls;
  * `window_le` -- calls that find the balance at least one never overfill a window;
  * `Stretch`, `earned`, `ceiling` -- rates and capacities that change, read over a window.
-/
import Mathlib.Algebra.Order.BigOperators.Group.List
import Mathlib.Algebra.Order.Field.Basic
import Mathlib.Algebra.Order.Ring.Cast
import Mathlib.Tactic.Ring
import Mathlib.Tactic.Linarith

namespace Rate

variable {K : Type*} [Field K] [LinearOrder K] [IsStrictOrderedRing K]

/-- How many of the calls `k, …, n - 1` were granted. -/
def grants (g : Nat → Bool) (k n : Nat) : Nat := (List.range' k (n - k)).countP g

section Grants

variable {g : Nat → Bool} {k n : Nat}

@[simp] theorem grants_self : grants g n n = 0 := by simp [grants]

/-- One more call. -/
theorem grants_succ (h : k ≤ n) : grants g k (n + 1) = grants g k n + if g n then 1 else 0 := by
  have hlen : n + 1 - k = (n - k) + 1 := by omega
  have hlast : k + 1 * (n - k) = n := by omega
  unfold grants
  rw [hlen, List.range'_concat, List.countP_append, List.countP_singleton, hlast]

end Grants

variable (b r : K) (t : Nat → K) (g : Nat → Bool)

/-- The balance call `n` finds: full before the first call. -/
def level : Nat → K
  | 0 => b
  | n + 1 => min b (level n - (if g n then 1 else 0) + r * (t (n + 1) - t n))

/-- **The clamped balance is a minimum over all windows.** -/
theorem le_level_iff (x : K) (n : Nat) :
    x ≤ level b r t g n ↔ ∀ k ≤ n, x + grants g k n ≤ b + r * (t n - t k) := by
  induction n generalizing x with
  | zero =>
    constructor
    · intro h k hk
      obtain rfl : k = 0 := by omega
      simpa [level] using h
    · intro h
      simpa [level] using h 0 (Nat.le_refl 0)
  | succ n ih =>
    -- the balance before the refill must have been at least `y`
    have hback : x ≤ level b r t g n - (if g n then 1 else 0) + r * (t (n + 1) - t n) ↔
        x + (if g n then 1 else 0) - r * (t (n + 1) - t n) ≤ level b r t g n := by
      constructor <;> intro h <;> linarith
    unfold level
    rw [le_min_iff, hback, ih]
    constructor
    · intro ⟨hfull, hall⟩ k hk
      rcases Nat.lt_or_ge n k with hlt | hle
      · obtain rfl : k = n + 1 := by omega
        simpa using hfull
      · have hk' := hall k hle
        rw [grants_succ hle]
        push_cast
        linarith
    · intro hall
      refine ⟨by simpa using hall (n + 1) (Nat.le_refl _), fun k hle => ?_⟩
      have hk' := hall k (Nat.le_succ_of_le hle)
      rw [grants_succ hle] at hk'
      push_cast at hk'
      linarith

variable {b r t g}

/-- **No window is overfilled** by calls that are granted only on a balance of at least one, at
    times that do not go back. -/
theorem window_le (hb : 0 ≤ b) (hr : 0 ≤ r) {k n : Nat} (ht : ∀ i < n, t i ≤ t (i + 1))
    (hg : ∀ i ≤ n, g i = true → 1 ≤ level b r t g i) (hk : k ≤ n) :
    (grants g k (n + 1) : K) ≤ b + r * (t n - t k) := by
  induction n with
  | zero =>
    obtain rfl : k = 0 := by omega
    rw [grants_succ (Nat.le_refl 0), grants_self]
    cases hgrant : g 0 with
    | false => simpa using hb
    | true =>
      have hlevel := hg 0 (Nat.le_refl 0) hgrant
      simpa [level] using hlevel
  | succ n ih =>
    cases hgrant : g (n + 1) with
    | true =>
      have hroom := (le_level_iff b r t g 1 (n + 1)).mp (hg _ (Nat.le_refl _) hgrant) k hk
      rw [grants_succ hk, hgrant]
      push_cast
      simp only [if_true]
      linarith
    | false =>
      rw [grants_succ hk, hgrant]
      rcases Nat.lt_or_ge n k with hlt | hle
      · obtain rfl : k = n + 1 := by omega
        simpa using hb
      · have hstep := ht n (Nat.lt_succ_self n)
        have hold := ih (fun i hi => ht i (Nat.lt_succ_of_lt hi))
          (fun i hi => hg i (Nat.le_succ_of_le hi)) hle
        have hgrow : r * (t n - t k) ≤ r * (t (n + 1) - t k) :=
          mul_le_mul_of_nonneg_left (by linarith) hr
        simp only [Bool.false_eq_true, if_false, Nat.add_zero]
        linarith

/-! ## Rates that change -/

/-- A stretch of time with one rate and one capacity in force. -/
structure Stretch (K : Type*) where
  rate : K
  capacity : Nat
  since : K
  till : K

namespace Stretch

/-- How much of the stretch lies in the window `[s, e]`. -/
def within (x : Stretch K) (s e : K) : K := max 0 (min x.till e - max x.since s)

/-- The stretch and the window meet. -/
def Meets (x : Stretch K) (s e : K) : Prop := x.since ≤ e ∧ s ≤ x.till

instance (s e : K) : DecidablePred fun x : Stretch K => x.Meets s e :=
  fun _ => inferInstanceAs (Decidable (_ ∧ _))

omit [IsStrictOrderedRing K] in
theorem within_nonneg (x : Stretch K) (s e : K) : 0 ≤ x.within s e := le_max_left _ _

/-- A stretch inside the window counts whole. -/
theorem within_of_inside {x : Stretch K} {s e : K} (hs : s ≤ x.since) (hx : x.since ≤ x.till)
    (he : x.till ≤ e) : x.within s e = x.till - x.since := by
  unfold within
  rw [min_eq_left he, max_eq_left hs]
  exact max_eq_right (by linarith)

end Stretch

/-- What the rates in force earn within the window. -/
def earned (s e : K) (l : List (Stretch K)) : K := (l.map fun x => x.rate * x.within s e).sum

/-- The largest capacity in force within the window. -/
def ceiling (s e : K) (l : List (Stretch K)) : Nat :=
  ((l.filter fun x => x.Meets s e).map (·.capacity)).foldr max 0

section Stretches

variable {s e : K} {x : Stretch K} {l : List (Stretch K)}

omit [IsStrictOrderedRing K] in
@[simp] theorem earned_cons : earned s e (x :: l) = x.rate * x.within s e + earned s e l := rfl

theorem earned_nonneg (h : ∀ x ∈ l, 0 ≤ x.rate) : 0 ≤ earned s e l := by
  refine List.sum_nonneg fun a ha => ?_
  obtain ⟨x, hx, rfl⟩ := List.mem_map.mp ha
  exact mul_nonneg (h x hx) (x.within_nonneg s e)

omit [Field K] [IsStrictOrderedRing K] in
theorem ceiling_le_cons : ceiling s e l ≤ ceiling s e (x :: l) := by
  unfold ceiling
  by_cases h : x.Meets s e <;> simp [h]

omit [Field K] [IsStrictOrderedRing K] in
theorem le_ceiling_cons (h : x.Meets s e) : x.capacity ≤ ceiling s e (x :: l) := by
  unfold ceiling
  simp [h]

end Stretches

end Rate
