/-
  File:      InvoiceOcr/Async/Hosts.lean
  Subject:   LOOPS THAT HOST BODIES. A process that runs bodies one after another at fixed places, seen
             from the system whose tasks those bodies are. Nothing here names a program.

  * `Passes` -- the calls of a loop that has made whole passes only;
  * `Sooner`, `wellFounded_sooner` -- what is left of a body after an answer comes before the body;
  * `Leaner`, `wellFounded_leaner` -- the same for many bodies, each at a stage of its loop, of which one
    moves;
  * **`Hosts`** -- every body at a place is a task of the system, and no two places share a task;
    `Hosts.start`, `Hosts.call`, `Hosts.leave` -- a place starts a body, goes on with it, gives it up.
-/
import InvoiceOcr.Async.History
import Mathlib.Logic.Hydra

namespace Async

variable {Op : Type} {Ans : Op → Type} {ε α W N π : Type}

/-! ## 1. Passes -/

/-- The calls of a loop whose passes so far have all returned. -/
inductive Passes (body : Proc Op Ans ε α) : List (Event Op Ans ε) → Prop where
  | none : Passes body []
  | pass {es es' : List (Event Op Ans ε)} {a : α} (h : Passes body es)
      (hp : Leads body es' (.ret a)) : Passes body (es ++ es')

/-! ## 2. What is left of a body -/

/-- What is left of a body after one answer. -/
def Sooner (q p : Proc Op Ans ε α) : Prop := ∃ o k r, p = .call o k ∧ q = k r

/-- **A body has no endless run.** -/
theorem wellFounded_sooner : WellFounded (@Sooner Op Ans ε α) := by
  refine ⟨fun p => ?_⟩
  induction p with
  | ret a => exact ⟨_, fun q h => by obtain ⟨o, k, r, he, _⟩ := h; cases he⟩
  | raise e => exact ⟨_, fun q h => by obtain ⟨o, k, r, he, _⟩ := h; cases he⟩
  | call o k ih =>
    refine ⟨_, fun q h => ?_⟩
    obtain ⟨o', k', r, he, rfl⟩ := h
    cases he
    exact ih r

/-- A loop: the stage it is at, and what is left of the body of its pass. -/
abbrev Standing (Op : Type) (Ans : Op → Type) (ε α : Type) := Nat × Proc Op Ans ε α

/-- A loop moves to a lower stage, or goes on with the body of its pass. -/
def Lower : Standing Op Ans ε α → Standing Op Ans ε α → Prop := Prod.Lex (· < ·) Sooner

/-- One of many loops moves. -/
def Leaner (ys xs : List (Standing Op Ans ε α)) : Prop :=
  ∃ i x y, xs[i]? = some x ∧ ys = xs.set i y ∧ Lower y x

theorem coe_set_add {α : Type} {xs : List α} {i : Nat} {x y : α} (h : xs[i]? = some x) :
    ((xs.set i y : List α) : Multiset α) + {x} = (xs : Multiset α) + {y} := by
  induction xs generalizing i with
  | nil => cases h
  | cons z xs ih =>
    cases i with
    | zero =>
      cases h
      show (y ::ₘ (xs : Multiset α)) + {x} = (x ::ₘ (xs : Multiset α)) + {y}
      rw [add_comm (y ::ₘ (xs : Multiset α)), add_comm (x ::ₘ (xs : Multiset α)),
        Multiset.singleton_add, Multiset.singleton_add, Multiset.cons_swap]
    | succ i =>
      have ih := ih (i := i) h
      show (z ::ₘ ((xs.set i y : List α) : Multiset α)) + {x} = (z ::ₘ (xs : Multiset α)) + {y}
      rw [Multiset.cons_add, ih, Multiset.cons_add]

/-- **Loops that each only move down come to rest**, whichever moves when. -/
theorem wellFounded_leaner : WellFounded (@Leaner Op Ans ε α) := by
  have hlower : WellFounded (@Lower Op Ans ε α) :=
    Nat.lt_wfRel.wf.prod_lex wellFounded_sooner
  refine Subrelation.wf (fun {ys xs} h => ?_)
    (InvImage.wf (fun xs : List (Standing Op Ans ε α) => (xs : Multiset (Standing Op Ans ε α)))
      hlower.cutExpand)
  obtain ⟨i, x, y, hx, rfl, hlt⟩ := h
  exact ⟨{y}, x, fun a ha => by rw [Multiset.mem_singleton.mp ha]; exact hlt, coe_set_add hx⟩

/-! ## 3. Places -/

/-- **The bodies at the places are tasks of the system**, no two of them the same task. -/
structure Hosts (bodies : π → Option (N × Proc Op Ans ε Unit)) (s : State Op Ans ε W N)
    (task : π → Nat) : Prop where
  there : ∀ {q n p}, bodies q = some (n, p) → s.tasks[task q]? = some ⟨n, p⟩
  apart : ∀ {q q' b b'}, bodies q = some b → bodies q' = some b' → task q = task q' → q = q'

section Places

variable {S : Sys Op Ans ε W N} {bodies bodies' : π → Option (N × Proc Op Ans ε Unit)}
  {s : State Op Ans ε W N} {task : π → Nat} {n : N}

theorem hosts_empty (h : ∀ q, bodies q = none) : Hosts bodies s task where
  there hq := by rw [h] at hq; cases hq
  apart hq _ _ := by rw [h] at hq; cases hq

/-- A place may give up its body: the task stays, and nothing runs it. -/
theorem Hosts.leave (h : Hosts bodies s task) (hle : ∀ q b, bodies' q = some b → bodies q = some b) :
    Hosts bodies' s task where
  there hq := h.there (hle _ _ hq)
  apart hq hq' := h.apart (hle _ _ hq) (hle _ _ hq')

/-- The world is not the places' concern. -/
theorem Hosts.drift (h : Hosts bodies s task) (w' : W) : Hosts bodies ⟨w', s.tasks⟩ task :=
  ⟨h.there, h.apart⟩

/-- A task of a place is one of the tasks there are. -/
theorem Hosts.lt (h : Hosts bodies s task) {q : π} {b : N × Proc Op Ans ε Unit}
    (hq : bodies q = some b) : task q < s.tasks.length :=
  (List.getElem?_eq_some_iff.mp (h.there hq)).1

/-- **A place starts a body.** -/
theorem Hosts.start [DecidableEq π] (h : Hosts bodies s task) {q : π} {p : Proc Op Ans ε Unit}
    (hle : ∀ q' b, bodies' q' = some b → (q' = q ∧ b = (n, p)) ∨ (q' ≠ q ∧ bodies q' = some b)) :
    Hosts bodies' ⟨s.world, s.tasks ++ [⟨n, p⟩]⟩
      (fun q' => if q' = q then s.tasks.length else task q') where
  there {q' n' p'} hq' := by
    rcases hle _ _ hq' with ⟨rfl, hb⟩ | ⟨hne, hq'⟩
    · cases hb
      rw [if_pos rfl]
      exact List.getElem?_concat_length
    · rw [if_neg hne, List.getElem?_append_left (h.lt hq')]
      exact h.there hq'
  apart {q₁ q₂ b₁ b₂} h₁ h₂ he := by
    rcases hle _ _ h₁ with ⟨rfl, _⟩ | ⟨hne₁, h₁⟩ <;> rcases hle _ _ h₂ with ⟨rfl, _⟩ | ⟨hne₂, h₂⟩
    · rfl
    · rw [if_pos rfl, if_neg hne₂] at he
      exact absurd (h.lt h₂) (by omega)
    · rw [if_neg hne₁, if_pos rfl] at he
      exact absurd (h.lt h₁) (by omega)
    · rw [if_neg hne₁, if_neg hne₂] at he
      exact h.apart h₁ h₂ he

/-- **A place goes on with its body**, or gives it up with the answer. -/
theorem Hosts.call (h : Hosts bodies s task) {q : π} {o : Op}
    {k : Except ε (Ans o) → Proc Op Ans ε Unit} {r : Except ε (Ans o)} {w' : W}
    (hq : bodies q = some (n, .call o k))
    (hle : ∀ q' b, bodies' q' = some b → (q' = q ∧ b = (n, k r)) ∨ (q' ≠ q ∧ bodies q' = some b)) :
    Hosts bodies' ⟨w', s.tasks.set (task q) ⟨n, k r⟩⟩ task where
  there {q' n' p'} hq' := by
    rcases hle _ _ hq' with ⟨rfl, hb⟩ | ⟨hne, hq'⟩
    · cases hb
      exact List.getElem?_set_self (h.lt hq)
    · rw [List.getElem?_set_ne fun he => hne (h.apart hq' hq he.symm)]
      exact h.there hq'
  apart {q₁ q₂ b₁ b₂} h₁ h₂ he := by
    have hold : ∀ {q' b}, bodies' q' = some b → ∃ b', bodies q' = some b' := by
      intro q' b hb
      rcases hle _ _ hb with ⟨rfl, _⟩ | ⟨_, hb⟩
      · exact ⟨_, hq⟩
      · exact ⟨_, hb⟩
    obtain ⟨_, h₁⟩ := hold h₁
    obtain ⟨_, h₂⟩ := hold h₂
    exact h.apart h₁ h₂ he

end Places

end Async
