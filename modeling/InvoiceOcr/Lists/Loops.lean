/-
  File:      InvoiceOcr/Lists/Loops.lean
  Subject:   LOOPS THAT CAN FAIL: `mapM` and `foldlM` where a round may raise. Nothing here names a
             program.

  * `mapM_ok_iff`, `foldlM_ok_iff` -- a loop ends exactly if no round of it raises;
  * `mapM_error`, `mapM_map_iff`, `getElem?_mapM` -- what it raised, and what it returned;
  * **`foldlM_rule`** -- what every round preserves holds in the end.
-/
import InvoiceOcr.Async.Proc

namespace Loops

open Async

variable {α β γ ε τ : Type} {xs : List α}

theorem mapM_ok_iff {f : α → Except ε β} :
    (∃ ys, xs.mapM f = .ok ys) ↔ ∀ x ∈ xs, ∃ y, f x = .ok y := by
  induction xs with
  | nil => exact ⟨fun _ => nofun, fun _ => ⟨[], rfl⟩⟩
  | cons x xs ih =>
    rw [List.forall_mem_cons, ← ih, List.mapM_cons]
    cases hx : f x with
    | error e => exact ⟨fun ⟨_, h⟩ => (by cases h), fun ⟨⟨_, h⟩, _⟩ => (by cases h)⟩
    | ok y =>
      cases hxs : xs.mapM f with
      | error e => exact ⟨fun ⟨_, h⟩ => (by cases h), fun ⟨_, _, h⟩ => (by cases h)⟩
      | ok ys => exact ⟨fun _ => ⟨⟨y, rfl⟩, ys, rfl⟩, fun _ => ⟨_, rfl⟩⟩

/-- The error is that of a round. -/
theorem mapM_error {f : α → Except ε β} {e : ε} (h : xs.mapM f = .error e) :
    ∃ x ∈ xs, f x = .error e := by
  induction xs with
  | nil => cases h
  | cons x xs ih =>
    rw [List.mapM_cons] at h
    cases hx : f x with
    | error e' =>
      rw [hx] at h
      cases h
      exact ⟨x, List.mem_cons_self, hx⟩
    | ok y =>
      cases hxs : xs.mapM f with
      | error e' =>
        rw [hx, hxs] at h
        cases h
        obtain ⟨x', hmem, hx'⟩ := ih hxs
        exact ⟨x', List.mem_cons_of_mem x hmem, hx'⟩
      | ok ys =>
        rw [hx, hxs] at h
        cases h

/-- A loop that only checks returns what it is about. -/
theorem mapM_map_iff {f : α → Except ε γ} {g : α → β} {ys : List β} :
    xs.mapM (fun x => (f x).map fun _ => g x) = .ok ys ↔
      ys = xs.map g ∧ ∀ x ∈ xs, ∃ y, f x = .ok y := by
  induction xs generalizing ys with
  | nil => exact ⟨fun h => ⟨(Except.ok.inj h).symm, nofun⟩, fun h => congrArg Except.ok h.1.symm⟩
  | cons x xs ih =>
    rw [List.mapM_cons, List.map_cons, List.forall_mem_cons]
    cases hx : f x with
    | error e => exact ⟨fun h => (by cases h), fun ⟨_, ⟨_, h⟩, _⟩ => (by cases h)⟩
    | ok y =>
      cases hxs : xs.mapM (fun x => (f x).map fun _ => g x) with
      | error e =>
        refine ⟨fun h => (by cases h), fun ⟨_, _, hall⟩ => ?_⟩
        have hok := ih.mpr ⟨rfl, hall⟩
        rw [hxs] at hok
        simp at hok
      | ok zs =>
        obtain ⟨rfl, hall⟩ := ih.mp hxs
        refine ⟨fun h => ⟨(Except.ok.inj h).symm, ⟨y, rfl⟩, hall⟩, fun h => ?_⟩
        exact congrArg Except.ok h.1.symm

theorem getElem?_mapM {f : α → Except ε β} : ∀ {xs : List α} {ys : List β} {i : Nat}
    {x : α} {y : β}, xs.mapM f = .ok ys → xs[i]? = some x → ys[i]? = some y → f x = .ok y
  | x :: xs, ys, i, _, _, h, hx, hy => by
    rw [List.mapM_cons] at h
    obtain ⟨y', hy', h⟩ := Proc.bind_eq_ok h
    obtain ⟨ys', hys', h⟩ := Proc.bind_eq_ok h
    cases h
    cases i with
    | zero =>
      cases hx
      cases hy
      exact hy'
    | succ i => exact getElem?_mapM hys' hx hy

/-- A loop fails only where a round of it does. -/
theorem foldlM_ok_iff {f : α → Except ε β} {r : τ → α → β → τ} {t : τ} :
    (∃ out, xs.foldlM (fun t x => do return r t x (← f x)) t = .ok out) ↔
      ∀ x ∈ xs, ∃ y, f x = .ok y := by
  induction xs generalizing t with
  | nil => exact ⟨fun _ => nofun, fun _ => ⟨t, rfl⟩⟩
  | cons x xs ih =>
    rw [List.forall_mem_cons, List.foldlM_cons]
    cases hx : f x with
    | ok y =>
      rw [← @ih (r t x y)]
      exact ⟨fun h => ⟨⟨y, rfl⟩, h⟩, fun h => h.2⟩
    | error e => exact ⟨fun ⟨_, h⟩ => (by cases h), fun ⟨⟨_, h⟩, _⟩ => (by cases h)⟩

/-- RUN: what every round preserves. -/
theorem foldlM_rule {f : τ → α → Except ε τ} {P : List α → τ → Prop} {t out : τ} (ht : P [] t)
    (hstep : ∀ done t x t', f t x = .ok t' → P done t → P (done ++ [x]) t')
    (h : xs.foldlM f t = .ok out) : P xs out := by
  suffices hrun : ∀ done, P done t → P (done ++ xs) out from hrun [] ht
  clear ht
  induction xs generalizing t with
  | nil =>
    intro done ht
    obtain rfl : t = out := Except.ok.inj h
    rwa [List.append_nil]
  | cons x xs ih =>
    intro done ht
    rw [List.foldlM_cons] at h
    obtain ⟨t', ht', h⟩ := Proc.bind_eq_ok h
    have hrun := ih h _ (hstep done t x t' ht' ht)
    rwa [List.append_assoc] at hrun

end Loops
