/-
  File:      InvoiceOcr/Lists/Greedy.lean
  Subject:   GREEDY ALIGNMENT OF TWO LISTS. Each item takes the best candidate that is left, the first
             of equals, if it is worth anything. Nothing here names a program.

  * `best`, `align` -- the two loops; `rest` -- the candidates that are left over;
  * **`align_own_ordered`** -- where no later candidate is better for an item than its own, and earlier
    ones worth nothing to their own items are worth less to it, each item gets its own;
  * **`align_entries`** -- one entry for each item, and none for those no candidate is worth anything to;
  * **`align_picks`** -- no candidate is lost, and none is given to two items.
-/
import Mathlib.Data.List.Forall2
import Mathlib.Data.List.Induction
import Mathlib.Data.List.ReduceOption

namespace Greedy

variable {α β : Type}

/-- One candidate: it replaces the best so far if it is better. -/
def better (score : α → Nat) (used : List Nat) (best : Option (Nat × Nat)) (x : α × Nat) :
    Option (Nat × Nat) :=
  if x.2 ∈ used then best
  else
    match best with
    | none => some (x.2, score x.1)
    | some (i, s) => if s < score x.1 then some (x.2, score x.1) else some (i, s)

/-- The best candidate that is not used, and its score. -/
def best (score : α → Nat) (used : List Nat) (xs : List α) : Option (Nat × Nat) :=
  xs.zipIdx.foldl (better score used) none

/-- One item: what it is aligned with, and the candidates used so far. -/
def step (score : β → α → Nat) (xs : List α) (st : List (Option α) × List Nat) (g : β) :
    List (Option α) × List Nat :=
  match best (score g) st.2 xs with
  | some (i, s) => if 0 < s then (st.1 ++ [xs[i]?], i :: st.2) else (st.1 ++ [none], st.2)
  | none => (st.1 ++ [none], st.2)

def align (score : β → α → Nat) (gs : List β) (xs : List α) : List (Option α) × List Nat :=
  gs.foldl (step score xs) ([], [])

/-- The candidates that are left over. -/
def rest (used : List Nat) (xs : List α) : List α :=
  (xs.zipIdx.filter fun x => x.2 ∉ used).map (·.1)

/-! ## The best candidate -/

section Best

variable {score : α → Nat} {used : List Nat} {xs : List (α × Nat)}

/-- What holds of every candidate that is left, with its score, holds of the best. -/
theorem foldl_best {P : Nat → Nat → Prop} (h : ∀ x ∈ xs, x.2 ∉ used → P x.2 (score x.1))
    {b : Option (Nat × Nat)} (hb : ∀ i s, b = some (i, s) → P i s) {i s : Nat}
    (hbest : xs.foldl (better score used) b = some (i, s)) : P i s := by
  induction xs generalizing b with
  | nil => exact hb i s hbest
  | cons x xs ih =>
    refine ih (fun y hy => h y (List.mem_cons_of_mem x hy)) ?_ hbest
    intro j t hj
    unfold better at hj
    split at hj
    · exact hb j t hj
    · next hfresh =>
      have hx := h x List.mem_cons_self hfresh
      cases b with
      | none =>
        cases hj
        exact hx
      | some best =>
        simp only at hj
        split at hj
        · cases hj
          exact hx
        · cases hj
          exact hb _ _ rfl

/-- Candidates that are all worth less than `c` leave nothing that is worth more. -/
theorem foldl_below {c : Nat} (h : ∀ x ∈ xs, x.2 ∉ used → score x.1 < c) {b : Option (Nat × Nat)}
    (hb : ∀ i s, b = some (i, s) → s < c) {i s : Nat}
    (hbest : xs.foldl (better score used) b = some (i, s)) : s < c :=
  @foldl_best _ score used xs (fun _ s => s < c) h b hb i s hbest

/-- No later candidate that is no better replaces the best. -/
theorem foldl_stays {i s : Nat} (h : ∀ x ∈ xs, score x.1 ≤ s) :
    xs.foldl (better score used) (some (i, s)) = some (i, s) := by
  induction xs with
  | nil => rfl
  | cons x xs ih =>
    have hx := h x List.mem_cons_self
    have hstep : better score used (some (i, s)) x = some (i, s) := by
      unfold better
      split
      · rfl
      · exact if_neg (by omega)
    rw [List.foldl_cons, hstep]
    exact ih fun y hy => h y (List.mem_cons_of_mem x hy)

/-- The best candidate is one that is left. -/
theorem best_mem {xs : List α} {i s : Nat} (h : best score used xs = some (i, s)) :
    i ∉ used ∧ ∃ x, xs[i]? = some x ∧ score x = s := by
  refine @foldl_best _ score used xs.zipIdx (fun i s => i ∉ used ∧ ∃ x, xs[i]? = some x ∧ score x = s)
    (fun x hx hfresh => ⟨hfresh, x.1, List.mk_mem_zipIdx_iff_getElem?.mp hx, rfl⟩) none ?_ i s h
  intro _ _ hnone
  cases hnone

/-- **The first best candidate is chosen.** -/
theorem best_own {before after : List α} {x : α} {score : α → Nat}
    (hbefore : ∀ y ∈ before.zipIdx, y.2 ∉ used → score y.1 < max 1 (score x))
    (hfresh : before.length ∉ used)
    (hafter : ∀ y ∈ after, score y ≤ score x) :
    (0 < score x → best score used (before ++ x :: after) = some (before.length, score x)) ∧
      (score x = 0 → ∀ i s, best score used (before ++ x :: after) = some (i, s) → s = 0) := by
  have hsplit : (before ++ x :: after).zipIdx =
      before.zipIdx ++ (x, before.length) :: after.zipIdx (before.length + 1) := by
    rw [List.zipIdx_append, List.zipIdx_cons, Nat.zero_add]
  have hmem : ∀ y ∈ after.zipIdx (before.length + 1), score y.1 ≤ score x := by
    intro y hy
    exact hafter y.1 (List.fst_mem_of_mem_zipIdx hy)
  unfold best
  rw [hsplit, List.foldl_append, List.foldl_cons]
  cases hfirst : before.zipIdx.foldl (better score used) none with
  | none =>
    have hstep : better score used none (x, before.length) = some (before.length, score x) :=
      if_neg hfresh
    rw [hstep, foldl_stays hmem]
    refine ⟨fun _ => rfl, fun hzero i s hs => ?_⟩
    cases hs
    exact hzero
  | some b =>
    obtain ⟨i, s⟩ := b
    have hs := foldl_below hbefore (fun _ _ hnone => by simp at hnone) hfirst
    constructor
    · intro hpos
      have hstep : better score used (some (i, s)) (x, before.length) =
          some (before.length, score x) := by
        unfold better
        rw [if_neg hfresh]
        exact if_pos (show s < score x by omega)
      rw [hstep, foldl_stays hmem]
    · intro hzero j t ht
      have hstep : better score used (some (i, s)) (x, before.length) = some (i, s) := by
        unfold better
        rw [if_neg hfresh]
        exact if_neg (show ¬ s < score x by omega)
      rw [hstep, foldl_stays (fun y hy => by have := hmem y hy; omega)] at ht
      simp only [Option.some.injEq, Prod.mk.injEq] at ht
      omega

end Best

/-! ## Each item its own -/

section Own

variable {score : β → α → Nat} {ps : List (β × α)}

/-- What an item is aligned with when it gets its own candidate, or none of worth. -/
def own (score : β → α → Nat) (p : β × α) : Option α := if 0 < score p.1 p.2 then some p.2 else none

/-- The first items have got their own, and no other candidate is used. -/
def Aligned (score : β → α → Nat) (before : List (β × α)) (st : List (Option α) × List Nat) : Prop :=
  st.1 = before.map (own score) ∧
    ∀ j, j ∈ st.2 ↔ ∃ q, (q, j) ∈ before.zipIdx ∧ 0 < score q.1 q.2

theorem mem_zipIdx_concat {γ : Type} {before : List γ} {p q : γ} {j : Nat} :
    (q, j) ∈ (before ++ [p]).zipIdx ↔ (q, j) ∈ before.zipIdx ∨ (q = p ∧ j = before.length) := by
  rw [List.zipIdx_append, List.mem_append, List.zipIdx_singleton, List.mem_singleton, Prod.mk.injEq,
    Nat.zero_add]

/-- The places of the items that are worth something, with one more item. -/
theorem worth_concat {before : List (β × α)} {p : β × α} {j : Nat} :
    (∃ q, (q, j) ∈ (before ++ [p]).zipIdx ∧ 0 < score q.1 q.2) ↔
      (∃ q, (q, j) ∈ before.zipIdx ∧ 0 < score q.1 q.2) ∨
        (j = before.length ∧ 0 < score p.1 p.2) := by
  simp only [mem_zipIdx_concat]
  constructor
  · intro ⟨q, hq, hworth⟩
    rcases hq with hq | ⟨rfl, hj⟩
    · exact Or.inl ⟨q, hq, hworth⟩
    · exact Or.inr ⟨hj, hworth⟩
  · intro h
    rcases h with ⟨q, hq, hworth⟩ | ⟨hj, hworth⟩
    · exact ⟨q, Or.inl hq, hworth⟩
    · exact ⟨p, Or.inr ⟨rfl, hj⟩, hworth⟩

/-- STEP: one more item gets its own. -/
theorem aligned_step {before after : List (β × α)} {p : β × α} {st : List (Option α) × List Nat}
    (hmax : ∀ q ∈ after, score p.1 q.2 ≤ score p.1 p.2)
    (hidle : ∀ q ∈ before, score q.1 q.2 = 0 → score p.1 q.2 < max 1 (score p.1 p.2))
    (h : Aligned score before st) :
    Aligned score (before ++ [p])
      (step score ((before ++ p :: after).map (·.2)) st p.1) := by
  have hlength : (before.map (·.2)).length = before.length := List.length_map _
  have hfresh : (before.map (·.2)).length ∉ st.2 := by
    rw [h.2, hlength]
    intro ⟨q, hq, _⟩
    have hlt := List.snd_lt_of_mem_zipIdx hq
    omega
  have hbefore : ∀ y ∈ (before.map (·.2)).zipIdx, y.2 ∉ st.2 →
      score p.1 y.1 < max 1 (score p.1 p.2) := by
    intro y hy hunused
    rw [List.zipIdx_map] at hy
    obtain ⟨⟨q, j⟩, hq, rfl⟩ := List.mem_map.mp hy
    refine hidle q (List.fst_mem_of_mem_zipIdx hq) ?_
    by_contra hpos
    exact hunused ((h.2 j).mpr ⟨q, hq, by omega⟩)
  have hafter : ∀ y ∈ after.map (·.2), score p.1 y ≤ score p.1 p.2 := by
    intro y hy
    obtain ⟨q, hq, rfl⟩ := List.mem_map.mp hy
    exact hmax q hq
  obtain ⟨hown, hnone⟩ := best_own hbefore hfresh hafter
  have hsplit : (before ++ p :: after).map (·.2) = before.map (·.2) ++ p.2 :: after.map (·.2) :=
    List.map_append
  unfold Aligned step
  rw [hsplit, List.map_append]
  by_cases hpos : 0 < score p.1 p.2
  · rw [hown hpos]
    simp only [if_pos hpos]
    have hget : (before.map (·.2) ++ p.2 :: after.map (·.2))[(before.map (·.2)).length]? = some p.2 := by
      rw [List.getElem?_append_right (Nat.le_refl _), Nat.sub_self]
      rfl
    have hself : [p].map (own score) = [some p.2] := congrArg (fun a => [a]) (if_pos hpos)
    refine ⟨by rw [h.1, hget, hself], fun j => ?_⟩
    rw [List.mem_cons, h.2, hlength, worth_concat, and_iff_left hpos]
    exact or_comm
  · have hself : [p].map (own score) = [none] := congrArg (fun a => [a]) (if_neg hpos)
    have hmembers : ∀ j, j ∈ st.2 ↔ ∃ q, (q, j) ∈ (before ++ [p]).zipIdx ∧ 0 < score q.1 q.2 := by
      intro j
      rw [h.2, worth_concat]
      exact (or_iff_left fun hlast => hpos hlast.2).symm
    cases hbest : best (score p.1) st.2 (before.map (·.2) ++ p.2 :: after.map (·.2)) with
    | none => exact ⟨by rw [h.1, hself], hmembers⟩
    | some b =>
      have hworthless : b.2 = 0 := hnone (by omega) b.1 b.2 hbest
      simp only [hworthless, Nat.lt_irrefl, if_false]
      exact ⟨by rw [h.1, hself], hmembers⟩

/-- **Greedy alignment gives each item its own** where no later candidate is better for it, and no
    earlier one that was left over is worth as much to it. -/
theorem align_own_ordered (hmax : ps.Pairwise fun p q => score p.1 q.2 ≤ score p.1 p.2)
    (hidle : ps.Pairwise fun p q => score p.1 p.2 = 0 → score q.1 p.2 < max 1 (score q.1 q.2)) :
    (align score (ps.map (·.1)) (ps.map (·.2))).1 = ps.map (own score) := by
  have hall : ∀ before after : List (β × α), ps = before ++ after →
      Aligned score before ((before.map (·.1)).foldl (step score (ps.map (·.2))) ([], [])) := by
    intro before
    induction before using List.reverseRecOn with
    | nil => exact fun _ _ => ⟨rfl, fun j => ⟨nofun, fun ⟨q, hq, _⟩ => nomatch hq⟩⟩
    | append_singleton before p ih =>
      intro after heq
      rw [List.append_assoc, List.singleton_append] at heq
      rw [heq] at hmax hidle
      rw [List.map_append, List.foldl_append]
      have hlater := (List.pairwise_cons.mp (List.pairwise_append.mp hmax).2.1).1
      have hearlier : ∀ q ∈ before, score q.1 q.2 = 0 → score p.1 q.2 < max 1 (score p.1 p.2) :=
        fun q hq => (List.pairwise_append.mp hidle).2.2 q hq p List.mem_cons_self
      have hstep := aligned_step hlater hearlier (ih (p :: after) heq)
      rw [← heq] at hstep
      exact hstep
  exact (hall ps [] (List.append_nil ps).symm).1

/-- Where each item's own candidate is best for it, the order does not matter. -/
theorem align_own (hmax : ∀ p ∈ ps, ∀ q ∈ ps, score p.1 q.2 ≤ score p.1 p.2)
    (hidle : ∀ q ∈ ps, score q.1 q.2 = 0 → ∀ p ∈ ps, score p.1 q.2 = 0) :
    (align score (ps.map (·.1)) (ps.map (·.2))).1 = ps.map (own score) :=
  align_own_ordered (List.pairwise_of_forall_mem_list hmax)
    (List.pairwise_of_forall_mem_list fun p hp q hq hzero => by
      have hworthless := hidle p hp hzero q hq
      omega)

end Own

/-! ## What items are aligned with -/

section Entries

variable {score : β → α → Nat} {xs : List α}

/-- An item is aligned with a candidate, and with none if none is worth anything to it. -/
def Entry (score : β → α → Nat) (xs : List α) (g : β) (a : Option α) : Prop :=
  (∀ x, a = some x → x ∈ xs) ∧ ((∀ x ∈ xs, score g x = 0) → a = none)

theorem step_entry (st : List (Option α) × List Nat) (g : β) :
    ∃ a, (step score xs st g).1 = st.1 ++ [a] ∧ Entry score xs g a := by
  unfold step
  cases hbest : best (score g) st.2 xs with
  | none => exact ⟨none, rfl, nofun, fun _ => rfl⟩
  | some b =>
    simp only
    split
    · next hpos =>
      refine ⟨_, rfl, fun x hx => List.mem_of_getElem? hx, fun hzero => ?_⟩
      have hworthless : b.2 < 1 := foldl_below (fun x hx _ => by
        have hnothing := hzero x.1 (List.fst_mem_of_mem_zipIdx hx)
        omega) (fun _ _ hnone => by simp at hnone) hbest
      omega
    · exact ⟨none, rfl, nofun, fun _ => rfl⟩

theorem foldl_entries (gs : List β) (st : List (Option α) × List Nat) :
    ∃ as, (gs.foldl (step score xs) st).1 = st.1 ++ as ∧ List.Forall₂ (Entry score xs) gs as := by
  induction gs generalizing st with
  | nil => exact ⟨[], (List.append_nil _).symm, .nil⟩
  | cons g gs ih =>
    obtain ⟨a, hstep, hentry⟩ := @step_entry _ _ score xs st g
    obtain ⟨as, hfold, hall⟩ := ih (step score xs st g)
    refine ⟨a :: as, ?_, .cons hentry hall⟩
    rw [List.foldl_cons, hfold, hstep, List.append_assoc]
    rfl

/-- **One entry for each item.** -/
theorem align_entries (gs : List β) : List.Forall₂ (Entry score xs) gs (align score gs xs).1 := by
  obtain ⟨as, heq, hall⟩ := @foldl_entries _ _ score xs gs ([], [])
  unfold align
  rw [heq]
  exact hall

end Entries

/-! ## Which candidate each item gets -/

section Picks

variable {score : β → α → Nat} {xs : List α}

/-- The candidate an item gets is worth something to it. -/
def Worth (score : β → α → Nat) (xs : List α) (g : β) (i : Option Nat) : Prop :=
  ∀ j, i = some j → ∃ x, xs[j]? = some x ∧ 0 < score g x

/-- STEP: one more item gets a candidate that is left, or none. -/
theorem step_pick (st : List (Option α) × List Nat) (g : β) :
    ∃ i : Option Nat, step score xs st g = (st.1 ++ [i.bind (xs[·]?)], i.toList ++ st.2) ∧
      Worth score xs g i ∧ ∀ j, i = some j → j ∉ st.2 := by
  have hnone : Worth score xs g none ∧ ∀ j, none = some j → j ∉ st.2 :=
    ⟨fun j hj => absurd hj.symm (Option.some_ne_none j),
      fun j hj => absurd hj.symm (Option.some_ne_none j)⟩
  unfold step
  cases hbest : best (score g) st.2 xs with
  | none => exact ⟨none, rfl, hnone⟩
  | some b =>
    obtain ⟨i, s⟩ := b
    obtain ⟨hfresh, x, hx, hs⟩ := best_mem hbest
    by_cases hpos : 0 < s
    · refine ⟨some i, if_pos hpos, fun j hj => ?_, fun j hj => ?_⟩
      · cases hj
        exact ⟨x, hx, hs ▸ hpos⟩
      · cases hj
        exact hfresh
    · exact ⟨none, if_neg hpos, hnone⟩

theorem foldl_picks (gs : List β) (st : List (Option α) × List Nat) :
    ∃ is : List (Option Nat), gs.foldl (step score xs) st =
        (st.1 ++ is.map (fun i => i.bind (xs[·]?)), is.reduceOption.reverse ++ st.2) ∧
      List.Forall₂ (Worth score xs) gs is ∧ is.reduceOption.Nodup ∧ ∀ j ∈ is.reduceOption, j ∉ st.2 := by
  induction gs generalizing st with
  | nil => exact ⟨[], by simp, .nil, List.nodup_nil, by simp⟩
  | cons g gs ih =>
    obtain ⟨i, hstep, hworth, hfresh⟩ := @step_pick _ _ score xs st g
    obtain ⟨is, hfold, hall, hnodup, hfree⟩ := ih (step score xs st g)
    refine ⟨i :: is, ?_, .cons hworth hall, ?_, ?_⟩
    · rw [List.foldl_cons, hfold, hstep]
      cases i <;> simp
    · cases i with
      | none => exact hnodup
      | some j =>
        rw [List.reduceOption_cons_of_some]
        refine List.nodup_cons.mpr ⟨fun hj => hfree j hj ?_, hnodup⟩
        rw [hstep]
        exact List.mem_append_left _ (List.mem_singleton.mpr rfl)
    · intro j hj
      cases i with
      | none => exact fun hused => hfree j hj (by rw [hstep]; exact hused)
      | some k =>
        rw [List.reduceOption_cons_of_some] at hj
        rcases List.mem_cons.mp hj with rfl | hj
        · exact hfresh j rfl
        · exact fun hused => hfree j hj (by rw [hstep]; exact List.mem_append_right _ hused)

/-- The places that are not used. -/
def unused (used : List Nat) (n : Nat) : List Nat := (List.range n).filter (· ∉ used)

theorem rest_eq (used : List Nat) : rest used xs = (unused used xs.length).filterMap (xs[·]?) := by
  unfold rest unused
  induction xs using List.reverseRecOn with
  | nil => rfl
  | append_singleton xs x ih =>
    have hbefore : ((List.range xs.length).filter (· ∉ used)).filterMap ((xs ++ [x])[·]?) =
        ((List.range xs.length).filter (· ∉ used)).filterMap (xs[·]?) := by
      refine List.filterMap_congr fun i hi => ?_
      exact List.getElem?_append_left (List.mem_range.mp (List.mem_filter.mp hi).1)
    rw [List.zipIdx_append, List.filter_append, List.map_append, ih, List.length_append,
      List.length_singleton, List.range_succ, List.filter_append, List.filterMap_append, hbefore]
    congr 1
    by_cases hused : xs.length ∈ used <;> simp [hused]

/-- **No candidate is lost, and none is given to two items**: the places used and those left over are
    all places, each once. -/
theorem align_picks (gs : List β) : ∃ is : List (Option Nat),
    align score gs xs = (is.map (fun i => i.bind (xs[·]?)), is.reduceOption.reverse) ∧
      List.Forall₂ (Worth score xs) gs is ∧
      (is.reduceOption ++ unused is.reduceOption.reverse xs.length).Perm (List.range xs.length) := by
  obtain ⟨is, hfold, hall, hnodup, -⟩ := @foldl_picks _ _ score xs gs ([], [])
  have hplaces : ∀ i ∈ is, ∀ j, i = some j → j < xs.length := by
    refine ((List.forall₂_and_left is gs).mp (hall.flip.imp fun i g h => And.intro (fun j hj => ?_) h)).1
    obtain ⟨x, hx, -⟩ := h j hj
    exact (List.getElem?_eq_some_iff.mp hx).1
  refine ⟨is, ?_, hall, ?_⟩
  · unfold align
    rw [hfold]
    simp
  · refine (List.perm_ext_iff_of_nodup ?_ List.nodup_range).mpr fun j => ?_
    · refine List.nodup_append.mpr ⟨hnodup, List.nodup_range.filter _, fun i hi j hj => ?_⟩
      rintro rfl
      have hunused := (List.mem_filter.mp hj).2
      simp [hi] at hunused
    · unfold unused
      simp only [List.mem_append, List.mem_filter, List.mem_range, List.mem_reverse, decide_not,
        Bool.not_eq_eq_eq_not, Bool.not_true, decide_eq_false_iff_not]
      constructor
      · rintro (hj | ⟨hj, -⟩)
        · exact hplaces _ (List.reduceOption_mem_iff.mp hj) j rfl
        · exact hj
      · exact fun hj => (em _).imp id fun hfree => ⟨hj, hfree⟩

end Picks

end Greedy
