/-
  File:      InvoiceOcr/Lists/Counts.lean
  Subject:   DICTS WITH DEFAULTS, in the order of insertion, and what is counted by key. Nothing here
             names a program.

  * `get`, `upsert` -- `d[k]` and `d[k] = f(d[k])` where a missing key reads as the default;
    `get_upsert`, `mem_keys_upsert`, `nodup_upsert` -- what an update does;
  * `sorted` -- `sorted(d.items())` for distinct keys: `sorted_keys`, `get_sorted`;
  * **`countP_by_key`** -- a count is the sum of the counts per key;
  * `roundEven`, `roundTo` -- `round(x)` and `round(x, n)`; `roundTo_mem` -- bounds that are whole
    numbers are kept.
-/
import Mathlib.Algebra.Order.Floor.Ring
import Mathlib.Data.List.Sort
import Mathlib.Data.Rat.Floor
import Mathlib.Tactic.Linarith

namespace Counts

variable {κ α β : Type}

/-! ## 1. Dicts -/

section Dicts

variable [DecidableEq κ]

/-- `d[k]`, `z` where there is none. -/
def get (z : β) (k : κ) : List (κ × β) → β
  | [] => z
  | (k', v) :: d => if k' = k then v else get z k d

/-- `d[k] = f(d[k])`. -/
def upsert (z : β) (k : κ) (f : β → β) : List (κ × β) → List (κ × β)
  | [] => [(k, f z)]
  | (k', v) :: d => if k' = k then (k', f v) :: d else (k', v) :: upsert z k f d

def keys (d : List (κ × β)) : List κ := d.map Prod.fst

variable {z : β} {k k' : κ} {f : β → β} {d d' : List (κ × β)}

theorem get_upsert : get z k' (upsert z k f d) = if k' = k then f (get z k d) else get z k' d := by
  induction d with
  | nil =>
    by_cases h : k' = k
    · subst h
      simp [upsert, get]
    · simp [upsert, get, h, Ne.symm h]
  | cons x d ih =>
    obtain ⟨k₀, v⟩ := x
    unfold upsert
    by_cases h₀ : k₀ = k
    · subst h₀
      by_cases h : k' = k₀
      · subst h
        simp [get]
      · simp [get, h, Ne.symm h]
    · rw [if_neg h₀, get, ih, get, get, if_neg h₀]
      by_cases h : k₀ = k'
      · rw [if_pos h, if_neg (h ▸ h₀), if_pos h]
      · rw [if_neg h, if_neg h]

theorem mem_keys_upsert : k' ∈ keys (upsert z k f d) ↔ k' = k ∨ k' ∈ keys d := by
  induction d with
  | nil => simp [upsert, keys]
  | cons x d ih =>
    obtain ⟨k₀, v⟩ := x
    unfold upsert
    by_cases h₀ : k₀ = k
    · subst h₀
      simp [keys]
    · rw [if_neg h₀]
      simp only [keys, List.map_cons, List.mem_cons] at ih ⊢
      rw [ih]
      exact or_left_comm

theorem nodup_upsert (h : (keys d).Nodup) : (keys (upsert z k f d)).Nodup := by
  induction d with
  | nil => simp [upsert, keys]
  | cons x d ih =>
    obtain ⟨k₀, v⟩ := x
    obtain ⟨hnew, hnodup⟩ := List.nodup_cons.mp h
    unfold upsert
    by_cases h₀ : k₀ = k
    · rw [if_pos h₀]
      exact h
    · rw [if_neg h₀]
      refine List.nodup_cons.mpr ⟨fun hmem => ?_, ih hnodup⟩
      rcases mem_keys_upsert.mp hmem with heq | hmem
      · exact h₀ heq
      · exact hnew hmem

/-- What is in a dict without two entries for a key is what the key reads as. -/
theorem get_of_mem (h : (keys d).Nodup) {v : β} (hmem : (k, v) ∈ d) : get z k d = v := by
  induction d with
  | nil => cases hmem
  | cons x d ih =>
    obtain ⟨k₀, v₀⟩ := x
    obtain ⟨hnew, hnodup⟩ := List.nodup_cons.mp h
    rcases List.mem_cons.mp hmem with heq | hmem
    · cases heq
      exact if_pos rfl
    · have hkey : k ∈ keys d := List.mem_map_of_mem hmem
      have hne : k₀ ≠ k := fun heq => hnew (heq ▸ hkey)
      rw [get, if_neg hne, ih hnodup hmem]

theorem get_of_not_mem (h : k ∉ keys d) : get z k d = z := by
  induction d with
  | nil => rfl
  | cons x d ih =>
    simp only [keys, List.map_cons, List.mem_cons, not_or] at h
    rw [get, if_neg (Ne.symm h.1), ih h.2]

/-- The order of the entries does not matter. -/
theorem get_perm (h : (keys d).Nodup) (hperm : d'.Perm d) : get z k d' = get z k d := by
  have h' : (keys d').Nodup := (hperm.map Prod.fst).nodup_iff.mpr h
  by_cases hk : k ∈ keys d
  · obtain ⟨⟨k₀, v⟩, hmem, rfl⟩ := List.mem_map.mp hk
    rw [get_of_mem h hmem, get_of_mem h' (hperm.mem_iff.mpr hmem)]
  · rw [get_of_not_mem hk, get_of_not_mem fun hk' => hk ((hperm.map Prod.fst).mem_iff.mp hk')]

/-- Values that are mapped. -/
theorem get_map {γ : Type} {g : β → γ} :
    get (g z) k (d.map fun x : κ × β => (x.1, g x.2)) = g (get z k d) := by
  induction d with
  | nil => rfl
  | cons x d ih =>
    rw [List.map_cons, get, get, ih]
    split <;> rfl

end Dicts

/-- In a dict of lists, the items under a key. -/
theorem countP_items [DecidableEq κ] {d : List (κ × List β)} {k : κ} {p : β → Bool}
    (h : (keys d).Nodup) :
    (d.flatMap fun x => x.2.map fun b => (x.1, b)).countP (fun v => decide (v.1 = k) && p v.2) =
      (get [] k d).countP p := by
  induction d with
  | nil => rfl
  | cons x d ih =>
    obtain ⟨k₀, bs⟩ := x
    obtain ⟨hnew, hnodup⟩ := List.nodup_cons.mp h
    rw [List.flatMap_cons, List.countP_append, ih hnodup, List.countP_map, get]
    by_cases hk : k₀ = k
    · subst hk
      rw [get_of_not_mem hnew]
      simp [Function.comp_def]
    · simp [Function.comp_def, hk]

/-! ## 2. Sorting -/

section Sorting

variable [LinearOrder κ] {z : β} {k : κ} {d : List (κ × β)}

/-- `sorted(d.items())`, the keys being distinct. -/
def sorted (d : List (κ × β)) : List (κ × β) := d.insertionSort fun x y => x.1 ≤ y.1

theorem sorted_perm : (sorted d).Perm d := List.perm_insertionSort _ d

theorem get_sorted (h : (keys d).Nodup) : get z k (sorted d) = get z k d := get_perm h sorted_perm

theorem mem_keys_sorted : k ∈ keys (sorted d) ↔ k ∈ keys d := (sorted_perm.map Prod.fst).mem_iff

/-- The keys are in strict order. -/
theorem sorted_keys (h : (keys d).Nodup) : (keys (sorted d)).Pairwise (· < ·) := by
  have hle : (sorted d).Pairwise fun x y => x.1 ≤ y.1 := List.pairwise_insertionSort _ d
  have hne : (keys (sorted d)).Nodup := (sorted_perm.map Prod.fst).nodup_iff.mpr h
  have hle' : (keys (sorted d)).Pairwise (· ≤ ·) := List.pairwise_map.mpr hle
  exact List.Pairwise.imp₂ (fun _ _ hle hne => lt_of_le_of_ne hle hne) hle' hne

end Sorting

/-! ## 3. Counts per key -/

theorem countP_or {q r : α → Bool} {xs : List α} (h : ∀ x, q x = true → r x = false) :
    xs.countP (fun x => q x || r x) = xs.countP q + xs.countP r := by
  induction xs with
  | nil => rfl
  | cons x xs ih =>
    rw [List.countP_cons, List.countP_cons, List.countP_cons, ih]
    cases hq : q x with
    | true => simp [h x hq]; omega
    | false => simp; omega

/-- The count over some keys. -/
theorem countP_keys [DecidableEq κ] {ks : List κ} {g : α → κ} {p : α → Bool} {xs : List α}
    (hnodup : ks.Nodup) :
    (ks.map fun k => xs.countP fun x => p x && decide (g x = k)).sum =
      xs.countP fun x => p x && decide (g x ∈ ks) := by
  induction ks with
  | nil => simp
  | cons k ks ih =>
    obtain ⟨hnew, hnodup⟩ := List.nodup_cons.mp hnodup
    rw [List.map_cons, List.sum_cons, ih hnodup, ← countP_or]
    · refine List.countP_congr fun x _ => ?_
      by_cases hp : p x = true <;> simp [hp]
    · intro x hx
      have hk : g x = k := of_decide_eq_true ((Bool.and_eq_true _ _).mp hx).2
      simp [hk, hnew]

/-- **A count is the sum of the counts per key**, over any list of the keys without repetition. -/
theorem countP_by_key [DecidableEq κ] {ks : List κ} {g : α → κ} {p : α → Bool} {xs : List α}
    (hnodup : ks.Nodup) (hmem : ∀ x ∈ xs, g x ∈ ks) :
    (ks.map fun k => xs.countP fun x => p x && decide (g x = k)).sum = xs.countP p := by
  rw [countP_keys hnodup]
  exact List.countP_congr fun x hx => by simp [hmem x hx]

/-! ## 4. Rounding -/

/-- `round(x)`: to the nearest whole number, halves to the even one. -/
def roundEven (x : ℚ) : ℤ :=
  let below := ⌊x⌋
  let rest := x - below
  if rest < 1 / 2 then below
  else if 1 / 2 < rest then below + 1
  else if below % 2 = 0 then below else below + 1

/-- `round(x, n)`. -/
def roundTo (n : Nat) (x : ℚ) : ℚ := roundEven (x * 10 ^ n) / 10 ^ n

theorem le_roundEven {a : ℤ} {x : ℚ} (h : (a : ℚ) ≤ x) : a ≤ roundEven x := by
  have hfloor : a ≤ ⌊x⌋ := Int.le_floor.mpr h
  unfold roundEven
  dsimp only
  split_ifs <;> omega

theorem roundEven_le {a : ℤ} {x : ℚ} (h : x ≤ a) : roundEven x ≤ a := by
  have hfloor : ⌊x⌋ ≤ a := by
    have := Int.floor_le x
    exact_mod_cast this.trans h
  have hup : ¬ x - ⌊x⌋ < 1 / 2 → ⌊x⌋ + 1 ≤ a := by
    intro hrest
    have hlt : ((⌊x⌋ : ℤ) : ℚ) < a := by linarith
    exact_mod_cast hlt
  unfold roundEven
  dsimp only
  split_ifs with hlow
  · exact hfloor
  · exact hup hlow
  · exact hfloor
  · exact hup hlow

/-- **Whole bounds are kept.** -/
theorem roundTo_mem {a b : ℤ} {x : ℚ} (n : Nat) (ha : (a : ℚ) ≤ x) (hb : x ≤ b) :
    (a : ℚ) ≤ roundTo n x ∧ roundTo n x ≤ b := by
  have hpos : (0 : ℚ) < 10 ^ n := by positivity
  have hcast : ∀ c : ℤ, ((c * 10 ^ n : ℤ) : ℚ) = c * 10 ^ n := fun c => by push_cast; rfl
  unfold roundTo
  rw [le_div_iff₀ hpos, div_le_iff₀ hpos, ← hcast a, ← hcast b, Int.cast_le, Int.cast_le]
  refine ⟨le_roundEven ?_, roundEven_le ?_⟩
  · rw [hcast]
    exact mul_le_mul_of_nonneg_right ha hpos.le
  · rw [hcast]
    exact mul_le_mul_of_nonneg_right hb hpos.le

end Counts
