/-
  File:      InvoiceOcr/Async/Tally.lean
  Subject:   COUNTING OVER THE TASKS. The sum of a weight over the situations of all tasks, and how
             one move changes it. Nothing here names a program.

  * `tally` -- the sum; `tally_set` -- one task moves; `tally_append` -- a task starts;
  * `countP_le_tally` -- a property whose tasks weigh at least one is counted by the tally;
  * `sum_le_countP`, `countP_range'_le` -- the same for lists of entries and of numbers.
-/
import Mathlib.Algebra.GroupWithZero.Nat
import Mathlib.Algebra.BigOperators.Group.List.Basic

namespace Async

variable {σ : Type} {f : σ → Nat} {ps : List σ} {p q : σ}

/-- The weight of all tasks together. -/
def tally (f : σ → Nat) (ps : List σ) : Nat := (ps.map f).sum

@[simp] theorem tally_nil : tally f [] = 0 := rfl

@[simp] theorem tally_cons : tally f (p :: ps) = f p + tally f ps := by simp [tally]

theorem tally_append : tally f (ps ++ [q]) = tally f ps + f q := by simp [tally]

/-- **One task moves.** -/
theorem tally_set {i : Nat} (h : ps[i]? = some p) :
    tally f (ps.set i q) + f p = tally f ps + f q := by
  induction ps generalizing i with
  | nil => cases h
  | cons x ps ih =>
    cases i with
    | zero =>
      cases h
      simp only [List.set_cons_zero, tally_cons]
      omega
    | succ i =>
      have ih := ih (i := i) h
      simp only [List.set_cons_succ, tally_cons]
      omega

/-- A move that does not add weight. -/
theorem tally_set_le {i : Nat} (h : ps[i]? = some p) (hle : f q ≤ f p) :
    tally f (ps.set i q) ≤ tally f ps := by
  have hset := tally_set (f := f) (q := q) h
  omega

/-- Weights compared entry by entry. -/
theorem tally_le_tally {g : σ → Nat} (h : ∀ p ∈ ps, f p ≤ g p) : tally f ps ≤ tally g ps := by
  induction ps with
  | nil => exact Nat.le_refl _
  | cons x ps ih =>
    have hhead := h x List.mem_cons_self
    have htail := ih fun p hp => h p (List.mem_cons_of_mem _ hp)
    simp only [tally_cons]
    omega

/-- **A property of tasks that weigh at least one is counted by the tally.** -/
theorem countP_le_tally {c : Nat → Bool}
    (h : ∀ i p, ps[i]? = some p → c i = true → 1 ≤ f p) :
    (List.range ps.length).countP c ≤ tally f ps := by
  induction ps generalizing c with
  | nil => simp
  | cons x ps ih =>
    have htail := ih (c := fun i => c (i + 1)) fun i p hp hc => h (i + 1) p hp hc
    have hhead : (if c 0 then 1 else 0) ≤ f x := by
      split
      · next hc => exact h 0 x rfl hc
      · exact Nat.zero_le _
    rw [List.length_cons, List.range_succ_eq_map, List.countP_cons, List.countP_map, tally_cons]
    have hcomp : List.countP (c ∘ Nat.succ) (List.range ps.length) ≤ tally f ps := htail
    omega

/-! ## Counting in a list -/

/-- A sum of weights is bounded by the entries that may weigh something. -/
theorem sum_le_countP {α : Type} {w : α → Nat} {c : α → Bool} {xs : List α}
    (h : ∀ x ∈ xs, w x ≤ if c x = true then 1 else 0) : (xs.map w).sum ≤ xs.countP c := by
  induction xs with
  | nil => exact Nat.le_refl _
  | cons x xs ih =>
    have htail := ih fun y hy => h y (List.mem_cons_of_mem _ hy)
    have hhead := h x List.mem_cons_self
    rw [List.map_cons, List.sum_cons, List.countP_cons]
    omega

/-- Of the numbers from 1 on, no more than `m` are at most `m`. -/
theorem countP_range'_le (m n : Nat) : (List.range' 1 n).countP (fun k => decide (k ≤ m)) ≤ m := by
  have hmin : (List.range' 1 n).countP (fun k => decide (k ≤ m)) = min n m := by
    induction n with
    | zero => simp
    | succ n ih =>
      rw [List.range'_1_concat, List.countP_append, ih, List.countP_singleton]
      by_cases hle : 1 + n ≤ m
      · rw [if_pos (decide_eq_true hle)]
        omega
      · rw [if_neg (by simpa using hle)]
        omega
  rw [hmin]
  exact Nat.min_le_right _ _

end Async
