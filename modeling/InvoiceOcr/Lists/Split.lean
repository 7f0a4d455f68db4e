/-
  File:      InvoiceOcr/Lists/Split.lean
  Subject:   LISTS CUT AT A SEPARATOR. When the pieces of one list are the last pieces of another.
             Nothing here names a program.

  * `splitOn_inj` -- the pieces determine the list;
  * **`splitOn_suffix_iff`** -- the pieces of `xs` end those of `ys` exactly when `xs` is `ys`, or
    ends it behind a separator;
  * `not_splitOn_suffix_of_glued`, `not_splitOn_suffix_of_last` -- two ways in which they do not.
-/
import Mathlib.Data.List.Basic

namespace Split

variable {α : Type*} [BEq α] [LawfulBEq α] {a : α} {xs ys zs : List α}

/-- **The pieces determine the list.** -/
theorem splitOn_inj (h : xs.splitOn a = ys.splitOn a) : xs = ys :=
  calc xs = [a].intercalate (xs.splitOn a) := (List.intercalate_splitOn a).symm
    _ = [a].intercalate (ys.splitOn a) := by rw [h]
    _ = ys := List.intercalate_splitOn a

omit [BEq α] [LawfulBEq α] in
/-- Joining the pieces in two parts. -/
theorem intercalate_append {ps qs : List (List α)} (hp : ps ≠ []) (hq : qs ≠ []) :
    [a].intercalate (ps ++ qs) = [a].intercalate ps ++ a :: [a].intercalate qs := by
  induction ps with
  | nil => exact absurd rfl hp
  | cons p ps ih =>
    by_cases hps : ps = []
    · subst hps
      rw [List.singleton_append, List.intercalate_cons_of_ne_nil hq, List.intercalate_singleton]
      simp
    · rw [List.cons_append, List.intercalate_cons_of_ne_nil (by simp [hps]), ih hps,
        List.intercalate_cons_of_ne_nil hps]
      simp

/-- **Last pieces, and the lists they come from.** -/
theorem splitOn_suffix_iff :
    xs.splitOn a <:+ ys.splitOn a ↔ xs = ys ∨ (a :: xs) <:+ ys := by
  constructor
  · intro ⟨ps, hps⟩
    by_cases hnil : ps = []
    · subst hnil
      exact Or.inl (splitOn_inj hps)
    · have hjoin := congrArg ([a].intercalate ·) hps
      simp only [intercalate_append hnil (List.splitOn_ne_nil a xs), List.intercalate_splitOn]
        at hjoin
      exact Or.inr ⟨_, hjoin⟩
  · intro h
    rcases h with rfl | ⟨ps, rfl⟩
    · exact List.suffix_refl _
    · rw [List.splitOn_append_cons_self]
      exact List.suffix_append _ _

/-- What stands before `xs` is glued to its first piece. -/
theorem not_splitOn_suffix_of_glued (hzs : zs ≠ []) (hlast : zs.getLast? ≠ some a) :
    ¬ xs.splitOn a <:+ (zs ++ xs).splitOn a := by
  rw [splitOn_suffix_iff]
  intro h
  rcases h with h | ⟨ps, hps⟩
  · exact hzs (List.self_eq_append_left.mp h)
  · have hglue : ps ++ [a] = zs := by
      rw [← List.append_left_inj xs]
      simpa using hps
    exact hlast (by rw [← hglue]; simp)

/-- A list whose last piece is another does not end in the pieces of `xs`. -/
theorem not_splitOn_suffix_of_last
    (hlast : (xs.splitOn a).getLast? ≠ (ys.splitOn a).getLast?) :
    ¬ xs.splitOn a <:+ (zs ++ a :: ys).splitOn a := by
  rw [List.splitOn_append_cons_self]
  intro ⟨ps, hps⟩
  have hends := congrArg List.getLast? hps
  rw [List.getLast?_append_of_ne_nil _ (List.splitOn_ne_nil a xs),
    List.getLast?_append_of_ne_nil _ (List.splitOn_ne_nil a ys)] at hends
  exact hlast hends

end Split
