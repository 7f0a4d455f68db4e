/-
  File:      InvoiceOcr/Rate/Special.lean
  Subject:   NUMBERS WITH INFINITIES AND NaN, over any ordered field: the special values of IEEE 754,
             the arithmetic between them exact but for its range. Nothing here names a program.

  * `Special` -- a number, an infinity, or NaN; `AtMost`, `Below`, `add`, `mul`;
  * `least` -- `min(x, y)` as Python has it: `x`, unless `y` is below it;
  * `toRange` -- a number out of range is an infinity;
  * `least_sum` -- under a cap within the range, numbers from 0 on never notice it;
  * `Large` -- NaN and plus infinity: no sum of theirs is below any number.
-/
import Mathlib.Algebra.Order.Field.Basic
import Mathlib.Tactic.Linarith

namespace Rate

/-- A number, an infinity or NaN. -/
inductive Special (K : Type*) where
  | fin (x : K)
  | inf (neg : Bool)
  | nan
  deriving DecidableEq

namespace Special

/-! ## 1. The order -/

section Order

variable {K : Type*} [LinearOrder K]

/-- `x <= y`; NaN is in no order. -/
def AtMost : Special K → Special K → Prop
  | .fin x, .fin y => x ≤ y
  | .fin _, .inf t => t = false
  | .inf s, .fin _ => s = true
  | .inf s, .inf t => s = true ∨ t = false
  | _, _ => False

/-- `x < y`. -/
def Below : Special K → Special K → Prop
  | .fin x, .fin y => x < y
  | .fin _, .inf t => t = false
  | .inf s, .fin _ => s = true
  | .inf s, .inf t => s = true ∧ t = false
  | _, _ => False

instance : (x y : Special K) → Decidable (x.AtMost y)
  | .fin x, .fin y => inferInstanceAs (Decidable (x ≤ y))
  | .fin _, .inf t => inferInstanceAs (Decidable (t = false))
  | .inf s, .fin _ => inferInstanceAs (Decidable (s = true))
  | .inf s, .inf t => inferInstanceAs (Decidable (s = true ∨ t = false))
  | .nan, _ => .isFalse id
  | .fin _, .nan => .isFalse id
  | .inf _, .nan => .isFalse id

instance : (x y : Special K) → Decidable (x.Below y)
  | .fin x, .fin y => inferInstanceAs (Decidable (x < y))
  | .fin _, .inf t => inferInstanceAs (Decidable (t = false))
  | .inf s, .fin _ => inferInstanceAs (Decidable (s = true))
  | .inf s, .inf t => inferInstanceAs (Decidable (s = true ∧ t = false))
  | .nan, _ => .isFalse id
  | .fin _, .nan => .isFalse id
  | .inf _, .nan => .isFalse id

/-- `min(x, y)`. -/
def least (x y : Special K) : Special K := if y.Below x then y else x

/-- NaN and plus infinity. -/
inductive Large {K : Type*} : Special K → Prop
  | nan : Large .nan
  | plus : Large (.inf false)

/-- A number or minus infinity. -/
inductive FinOrMinus {K : Type*} : Special K → Prop
  | fin (x : K) : FinOrMinus (.fin x)
  | minus : FinOrMinus (.inf true)

variable {x y : K} {a : Special K}

@[simp] theorem least_fin_fin : least (.fin x) (.fin y) = Special.fin (min x y) := by
  unfold least
  by_cases h : y < x
  · rw [if_pos (show (Special.fin y).Below (.fin x) from h), min_eq_right h.le]
  · rw [if_neg (show ¬ (Special.fin y).Below (.fin x) from h), min_eq_left (not_lt.mp h)]

@[simp] theorem least_nan : least a .nan = a := if_neg (by cases a <;> exact id)

@[simp] theorem least_inf : least (.fin x) (.inf false) = Special.fin x := if_neg (by simp [Below])

@[simp] theorem minus_least : least (.inf true) (.fin y) = (.inf true : Special K) :=
  if_neg (by simp [Below])

/-- Neither of them is below a number. -/
theorem Large.least (h : a.Large) : least (.fin x) a = .fin x := by
  cases h with
  | nan => exact least_nan
  | plus => exact least_inf

theorem least_atMost (h : a ≠ .nan) : (Special.least a (.fin y)).AtMost (.fin y) := by
  cases a with
  | fin x =>
    rw [least_fin_fin]
    exact min_le_right x y
  | inf s =>
    cases s
    · rw [show Special.least (.inf false) (.fin y) = .fin y from if_pos rfl]
      exact le_refl y
    · rw [minus_least]
      exact rfl
  | nan => exact absurd rfl h

/-- `min` with a number first is at most that number. -/
theorem fin_least_atMost : (Special.least (.fin y) a).AtMost (.fin y) := by
  cases a with
  | fin x =>
    rw [least_fin_fin]
    exact min_le_left y x
  | inf s =>
    cases s
    · rw [least_inf]
      exact le_refl y
    · rw [show Special.least (.fin y) (.inf true) = .inf true from if_pos rfl]
      exact rfl
  | nan =>
    rw [least_nan]
    exact le_refl y

end Order

/-! ## 2. Arithmetic -/

section Arithmetic

variable {K : Type*} [Field K] {a b : Special K}

/-- `x + y`; infinities of both signs have no sum. -/
def add : Special K → Special K → Special K
  | .fin x, .fin y => .fin (x + y)
  | .fin _, .inf t => .inf t
  | .inf s, .fin _ => .inf s
  | .inf s, .inf t => if s = t then .inf s else .nan
  | .nan, _ => .nan
  | _, .nan => .nan

@[simp] theorem fin_add_fin {x y : K} : (Special.fin x).add (.fin y) = .fin (x + y) := rfl

/-- What NaN or plus infinity is added to. -/
theorem Large.add (h : b.Large) : (a.add b).Large := by
  cases h with
  | nan => cases a <;> exact .nan
  | plus =>
    cases a with
    | fin x => exact .plus
    | inf s =>
      cases s
      · exact .plus
      · exact .nan
    | nan => exact .nan

/-- What minus infinity is added to. -/
theorem FinOrMinus.add_minus (h : a.FinOrMinus) : a.add (.inf true) = .inf true := by
  cases h <;> rfl

/-- What is added to minus infinity. -/
theorem FinOrMinus.minus_add (h : a.FinOrMinus) : (Special.inf true).add a = .inf true := by
  cases h <;> rfl

variable [LinearOrder K]

/-- A number times an infinity; `0` times it is NaN. -/
def scaleInf (x : K) (s : Bool) : Special K :=
  if x = 0 then .nan else .inf (xor s (decide (x < 0)))

/-- `x * y`. -/
def mul : Special K → Special K → Special K
  | .fin x, .fin y => .fin (x * y)
  | .fin x, .inf t => scaleInf x t
  | .inf s, .fin y => scaleInf y s
  | .inf s, .inf t => .inf (xor s t)
  | .nan, _ => .nan
  | _, .nan => .nan

variable {x y : K}

@[simp] theorem fin_mul_fin : (Special.fin x).mul (.fin y) = .fin (x * y) := rfl

/-- A positive number times minus infinity. -/
theorem mul_minus (h : 0 < x) : (Special.fin x).mul (.inf true) = .inf true := by
  show scaleInf x true = .inf true
  unfold scaleInf
  rw [if_neg (ne_of_gt h), decide_eq_false (not_lt.mpr h.le)]
  rfl

/-- A number that is not negative, times NaN or plus infinity. -/
theorem Large.mul (h : b.Large) (hx : 0 ≤ x) : ((Special.fin x).mul b).Large := by
  cases h with
  | nan => exact .nan
  | plus =>
    show (scaleInf x false).Large
    unfold scaleInf
    rw [decide_eq_false (not_lt.mpr hx)]
    by_cases h0 : x = 0
    · rw [if_pos h0]
      exact .nan
    · rw [if_neg h0]
      exact .plus

end Arithmetic

/-! ## 3. The range -/

section Range

variable {K : Type*} [Field K] [LinearOrder K] {bound x y c : K} {a : Special K}

/-- A number out of range is an infinity. -/
def toRange (bound : K) : Special K → Special K
  | .fin x => if |x| < bound then .fin x else .inf (decide (x < 0))
  | a => a

@[simp] theorem toRange_inf {s : Bool} : toRange bound (.inf s) = .inf s := rfl

theorem toRange_of_lt (h : |x| < bound) : toRange bound (.fin x) = .fin x := if_pos h

theorem Large.toRange (h : a.Large) : (toRange bound a).Large := by
  cases h with
  | nan => exact .nan
  | plus => exact .plus

/-- A number from 0 on that is out of range. -/
theorem toRange_of_le (h : bound ≤ x) (hx : 0 ≤ x) : toRange bound (.fin x) = .inf false := by
  have hout : ¬ |x| < bound := not_lt.mpr (le_trans h (le_abs_self x))
  show (if |x| < bound then Special.fin x else .inf (decide (x < 0))) = .inf false
  rw [if_neg hout, decide_eq_false (not_lt.mpr hx)]

variable [IsStrictOrderedRing K]

/-- What is below the range's end stays a number or becomes minus infinity. -/
theorem finOrMinus_toRange (h : x < bound) : (toRange bound (.fin x)).FinOrMinus := by
  show (if |x| < bound then Special.fin x else .inf (decide (x < 0))).FinOrMinus
  by_cases hrange : |x| < bound
  · rw [if_pos hrange]
    exact .fin x
  · rw [if_neg hrange]
    have hneg : x < 0 := by
      by_contra hx
      rw [abs_of_nonneg (not_lt.mp hx)] at hrange
      exact hrange h
    rw [decide_eq_true hneg]
    exact .minus

/-- A number in range stays one, or is minus infinity, when it is capped. -/
theorem least_toRange (hc : -bound < c) (a : Special K) :
    least (.fin c) (toRange bound a) = .inf true ∨
      ∃ x, least (.fin c) (toRange bound a) = .fin x ∧ -bound < x := by
  have hcap : ∀ b : Special K, b.Large → least (.fin c) b = .inf true ∨
      ∃ x, least (.fin c) b = .fin x ∧ -bound < x := fun b hb => Or.inr ⟨c, hb.least, hc⟩
  cases a with
  | fin x =>
    by_cases h : |x| < bound
    · rw [toRange_of_lt h, least_fin_fin]
      exact Or.inr ⟨min c x, rfl, lt_min hc (abs_lt.mp h).1⟩
    · rw [show toRange bound (.fin x) = .inf (decide (x < 0)) from if_neg h]
      by_cases hx : x < 0
      · rw [decide_eq_true hx]
        exact Or.inl (if_pos rfl)
      · rw [decide_eq_false hx]
        exact hcap _ .plus
  | inf s =>
    cases s
    · exact hcap _ .plus
    · exact Or.inl (if_pos rfl)
  | nan => exact hcap _ .nan

theorem least_toRange_nonneg (hc : c < bound) (hx : 0 ≤ x) :
    least (.fin c) (toRange bound (.fin x)) = .fin (min c x) := by
  by_cases h : x < bound
  · rw [toRange_of_lt (by rwa [abs_of_nonneg hx]), least_fin_fin]
  · have hout : bound ≤ x := not_lt.mp h
    rw [toRange_of_le hout hx, least_inf, min_eq_left (le_trans hc.le hout)]

/-- **Under a cap within the range** a sum of numbers from 0 on is the exact one, overflow and all. -/
theorem least_sum (hc : c < bound) (hx : 0 ≤ x) (hy : 0 ≤ y) :
    least (.fin c) (toRange bound ((Special.fin x).add (toRange bound (.fin y)))) =
      .fin (min c (x + y)) := by
  by_cases h : y < bound
  · rw [toRange_of_lt (by rwa [abs_of_nonneg hy]), fin_add_fin]
    exact least_toRange_nonneg hc (add_nonneg hx hy)
  · have hout : bound ≤ y := not_lt.mp h
    rw [toRange_of_le hout hy]
    show least (.fin c) (.inf false) = _
    rw [least_inf, min_eq_left (by linarith)]

end Range

end Special

end Rate
