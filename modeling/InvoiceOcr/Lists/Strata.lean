/-
  File:      InvoiceOcr/Lists/Strata.lean
  Subject:   LISTS DEALT OUT STRATUM BY STRATUM: grouped by a key, and from each group a part of its own
             size. Nothing here names a program.

  * `sliceTo`, `sliceFrom` -- `xs[:n]` and `xs[n:]`, where a bound below 0 counts from the end;
    **`length_sliceFrom`** -- a part asked for at the end has its size, or is everything;
  * `put`, `Grouped` -- groups in the order of their keys' first items, each item in the one of its key;
  * `Rng` -- a source of shuffles;
  * **`Stratified`** -- a list dealt into two, the second with its quota of every key; it is dealt
    group by group (`Stratified.deal`), and shuffling its parts does not matter (`Stratified.shuffle`).
-/
import Mathlib.Data.List.Nodup
import Mathlib.Data.List.Perm.Basic

namespace Strata

variable {α κ : Type}

/-! ## 1. Slices -/

/-- Where a bound falls. -/
def bound (n : Int) (length : Nat) : Nat := if n < 0 then (length + n).toNat else n.toNat

def sliceTo (n : Int) (xs : List α) : List α := xs.take (bound n xs.length)

def sliceFrom (n : Int) (xs : List α) : List α := xs.drop (bound n xs.length)

theorem sliceTo_append_sliceFrom (n : Int) (xs : List α) : sliceTo n xs ++ sliceFrom n xs = xs :=
  List.take_append_drop _ xs

/-- **A part of `k` items at the end**, or all of them. Where `k` is between the length and its double,
    the bound below 0 counts from the end, and fewer are left. -/
theorem length_sliceFrom {xs : List α} {k : Int} (hk : 0 ≤ k)
    (h : k ≤ xs.length ∨ 2 * (xs.length : Int) ≤ k) :
    ((sliceFrom (xs.length - k) xs).length : Int) = min (xs.length : Int) k := by
  unfold sliceFrom bound
  rw [List.length_drop]
  split <;> omega

/-! ## 2. Groups -/

section Groups

/-- The items stand in the groups of their keys. -/
structure Grouped (key : α → Option κ) (xs : List α) (groups : List (κ × List α)) : Prop where
  nodup : (groups.map Prod.fst).Nodup
  nonempty : ∀ g ∈ groups, g.2 ≠ []
  own : ∀ g ∈ groups, ∀ x ∈ g.2, key x = some g.1
  perm : (groups.flatMap Prod.snd).Perm xs

variable {key : α → Option κ} {xs : List α} {groups : List (κ × List α)} {k : κ} {x : α}

theorem grouped_nil : Grouped key [] [] :=
  ⟨List.nodup_nil, by simp, by simp, List.Perm.refl _⟩

/-- The order of the groups does not matter. -/
theorem Grouped.reorder (h : Grouped key xs groups) {groups' : List (κ × List α)}
    (hperm : groups'.Perm groups) : Grouped key xs groups' where
  nodup := (hperm.map Prod.fst).nodup_iff.mpr h.nodup
  nonempty g hg := h.nonempty g (hperm.mem_iff.mp hg)
  own g hg := h.own g (hperm.mem_iff.mp hg)
  perm := (hperm.flatMap_right _).trans h.perm

/-- **RUN**: what every group, of a key that is new to the items before it, preserves of a loop over
    the groups. -/
theorem Grouped.foldl (h : Grouped key xs groups) {τ : Type} {f : τ → κ × List α → τ}
    {P : List α → τ → Prop} {t : τ} (ht : P [] t)
    (hstep : ∀ done t g, (∀ x ∈ done, key x ≠ some g.1) → g.2 ≠ [] → (∀ x ∈ g.2, key x = some g.1) →
      P done t → P (done ++ g.2) (f t g)) : P (groups.flatMap Prod.snd) (groups.foldl f t) := by
  suffices hrun : ∀ done, (∀ g ∈ groups, ∀ x ∈ done, key x ≠ some g.1) → P done t →
      P (done ++ groups.flatMap Prod.snd) (groups.foldl f t) from hrun [] (by simp) ht
  clear ht
  induction groups generalizing xs t with
  | nil =>
    intro done _ ht
    simpa using ht
  | cons g groups ih =>
    intro done hdone ht
    obtain ⟨hnew, hnodup⟩ := List.nodup_cons.mp h.nodup
    have hown := h.own g List.mem_cons_self
    have hrest : Grouped key (groups.flatMap Prod.snd) groups :=
      ⟨hnodup, fun g' hg' => h.nonempty g' (List.mem_cons_of_mem _ hg'),
        fun g' hg' => h.own g' (List.mem_cons_of_mem _ hg'), List.Perm.refl _⟩
    have hnext := hstep done t g (hdone g List.mem_cons_self) (h.nonempty g List.mem_cons_self) hown ht
    rw [List.flatMap_cons, ← List.append_assoc]
    refine ih hrest _ (fun g' hg' x hx hkey => ?_) hnext
    rcases List.mem_append.mp hx with hx | hx
    · exact hdone g' (List.mem_cons_of_mem _ hg') x hx hkey
    · have heq : g.1 = g'.1 := Option.some.inj ((hown x hx).symm.trans hkey)
      exact hnew (heq ▸ List.mem_map_of_mem hg')

variable [DecidableEq κ]

/-- `groups[k].append(x)`, a list made at the first. -/
def put (k : κ) (x : α) : List (κ × List α) → List (κ × List α)
  | [] => [(k, [x])]
  | (k', xs) :: groups => if k' = k then (k, xs ++ [x]) :: groups else (k', xs) :: put k x groups

theorem mem_keys_put {k' : κ} :
    k' ∈ (put k x groups).map Prod.fst ↔ k' = k ∨ k' ∈ groups.map Prod.fst := by
  induction groups with
  | nil => simp [put]
  | cons g groups ih =>
    obtain ⟨k₀, ys⟩ := g
    unfold put
    split
    · next heq =>
      subst heq
      simp
    · simp only [List.map_cons, List.mem_cons, ih]
      exact or_left_comm

theorem nodup_put (h : (groups.map Prod.fst).Nodup) : ((put k x groups).map Prod.fst).Nodup := by
  induction groups with
  | nil => simp [put]
  | cons g groups ih =>
    obtain ⟨k₀, ys⟩ := g
    obtain ⟨hnew, hrest⟩ := List.nodup_cons.mp h
    unfold put
    split
    · next heq => exact heq ▸ h
    · next hne =>
      refine List.nodup_cons.mpr ⟨fun hmem => ?_, ih hrest⟩
      rcases mem_keys_put.mp hmem with heq | hmem
      · exact hne heq
      · exact hnew hmem

/-- A group after `put` is one from before, or that of the key with the item at its end. -/
theorem mem_put {g : κ × List α} (h : g ∈ put k x groups) :
    g ∈ groups ∨ ∃ ys, g = (k, ys ++ [x]) ∧ (ys = [] ∨ (k, ys) ∈ groups) := by
  induction groups with
  | nil => exact Or.inr ⟨[], List.mem_singleton.mp h, Or.inl rfl⟩
  | cons g₀ groups ih =>
    obtain ⟨k₀, ys⟩ := g₀
    unfold put at h
    split at h
    · next heq =>
      subst heq
      rcases List.mem_cons.mp h with rfl | h
      · exact Or.inr ⟨ys, rfl, Or.inr List.mem_cons_self⟩
      · exact Or.inl (List.mem_cons_of_mem _ h)
    · rcases List.mem_cons.mp h with rfl | h
      · exact Or.inl List.mem_cons_self
      · rcases ih h with h | ⟨zs, hg, hzs⟩
        · exact Or.inl (List.mem_cons_of_mem _ h)
        · exact Or.inr ⟨zs, hg, hzs.imp_right (List.mem_cons_of_mem _)⟩

theorem flatMap_put : ((put k x groups).flatMap Prod.snd).Perm (groups.flatMap Prod.snd ++ [x]) := by
  induction groups with
  | nil => exact List.Perm.refl _
  | cons g groups ih =>
    obtain ⟨k₀, ys⟩ := g
    unfold put
    split
    · simp only [List.flatMap_cons, List.append_assoc]
      exact List.perm_append_comm.append_left ys
    · simp only [List.flatMap_cons, List.append_assoc]
      exact ih.append_left ys

/-- STEP: one more item. -/
theorem Grouped.put (h : Grouped key xs groups) (hx : key x = some k) :
    Grouped key (xs ++ [x]) (put k x groups) where
  nodup := nodup_put h.nodup
  nonempty g hg := by
    rcases mem_put hg with hg | ⟨ys, rfl, -⟩
    · exact h.nonempty g hg
    · simp
  own g hg y hy := by
    rcases mem_put hg with hg | ⟨ys, rfl, hys⟩
    · exact h.own g hg y hy
    · rcases List.mem_append.mp hy with hy | hy
      · rcases hys with rfl | hys
        · cases hy
        · exact h.own _ hys y hy
      · rw [List.mem_singleton.mp hy]
        exact hx
  perm := flatMap_put.trans (h.perm.append_right _)

end Groups

/-! ## 3. Shuffles and strata -/

/-- A source of shuffles: each gives some order of the items. -/
structure Rng (σ α : Type) where
  shuffle : σ → List α → List α × σ
  perm : ∀ s xs, (shuffle s xs).1.Perm xs

/-- **`xs` is dealt into `ys` and `zs`**, the second with its quota of every key. -/
structure Stratified [DecidableEq κ] (key : α → Option κ) (quota : κ → Nat → Nat)
    (xs ys zs : List α) : Prop where
  perm : (ys ++ zs).Perm xs
  counts : ∀ k, zs.countP (key · = some k) = quota k (xs.countP (key · = some k))

section Deal

variable [DecidableEq κ] {key : α → Option κ} {quota : κ → Nat → Nat} {xs ys zs : List α}

theorem stratified_nil (h : ∀ k, quota k 0 = 0) : Stratified key quota [] [] [] :=
  ⟨List.Perm.refl _, fun k => (h k).symm⟩

theorem countP_own {k : κ} (h : ∀ x ∈ xs, key x = some k) (k' : κ) :
    xs.countP (key · = some k') = if k' = k then xs.length else 0 := by
  split
  · next heq => exact List.countP_eq_length.mpr fun x hx => by simp [h x hx, heq]
  · next hne =>
    refine List.countP_eq_zero.mpr fun x hx => ?_
    have hne' : k ≠ k' := fun heq => hne heq.symm
    simp [h x hx, hne']

/-- STEP: a new key, of whose items the second list gets its quota. -/
theorem Stratified.deal (h : Stratified key quota xs ys zs) (hzero : ∀ k, quota k 0 = 0) {k : κ}
    (hnew : ∀ x ∈ xs, key x ≠ some k) {items ys' zs' : List α} (hown : ∀ x ∈ items, key x = some k)
    (hperm : (ys' ++ zs').Perm items) (hlength : zs'.length = quota k items.length) :
    Stratified key quota (xs ++ items) (ys ++ ys') (zs ++ zs') := by
  have hown' : ∀ x ∈ zs', key x = some k :=
    fun x hx => hown x (hperm.mem_iff.mp (List.mem_append_right _ hx))
  refine ⟨?_, fun k' => ?_⟩
  · calc ys ++ ys' ++ (zs ++ zs') = ys ++ (ys' ++ zs ++ zs') := by simp only [List.append_assoc]
      List.Perm _ (ys ++ (zs ++ ys' ++ zs')) :=
        (List.perm_append_comm.append_right zs').append_left ys
      _ = (ys ++ zs) ++ (ys' ++ zs') := by simp only [List.append_assoc]
      List.Perm _ (xs ++ items) := h.perm.append hperm
  · rw [List.countP_append, List.countP_append, h.counts, countP_own hown, countP_own hown']
    by_cases hk : k' = k
    · subst hk
      have hnone : xs.countP (key · = some k') = 0 :=
        List.countP_eq_zero.mpr fun x hx => by simpa using hnew x hx
      rw [if_pos rfl, if_pos rfl, hnone, hzero, Nat.zero_add, Nat.zero_add, hlength]
    · rw [if_neg hk, if_neg hk, Nat.add_zero, Nat.add_zero]

/-- The order of the three lists does not matter. -/
theorem Stratified.shuffle (h : Stratified key quota xs ys zs) {xs' ys' zs' : List α}
    (hxs : xs.Perm xs') (hys : ys'.Perm ys) (hzs : zs'.Perm zs) :
    Stratified key quota xs' ys' zs' where
  perm := ((hys.append hzs).trans h.perm).trans hxs
  counts k := by rw [hzs.countP_eq, h.counts, hxs.countP_eq]

/-- No mark of an item is in both parts, if the items are marked apart. -/
theorem Stratified.disjoint (h : Stratified key quota xs ys zs) {β : Type} {mark : α → β}
    (hnodup : (xs.map mark).Nodup) : List.Disjoint (ys.map mark) (zs.map mark) := by
  have hparts : (ys.map mark ++ zs.map mark).Nodup := by
    rw [← List.map_append]
    exact (h.perm.map mark).nodup_iff.mpr hnodup
  exact List.disjoint_of_nodup_append hparts

end Deal

end Strata
