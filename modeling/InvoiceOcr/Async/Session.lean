/-
  File:      InvoiceOcr/Async/Session.lean
  Subject:   BODIES ONE AFTER ANOTHER. A shared state, bodies that run alone from start to end, and
             what happens by itself between them. Nothing here names a program.

  * `Turn` -- one body that has run, with its events and outcome, or time that has passed;
  * `Session` -- the turns so far, the latest first, each with the states around it;
  * **`Session.invariant`** -- what the start has and every turn of a kind keeps, every session of
    such turns has.
-/
import InvoiceOcr.Async.Proc

namespace Async

variable {Op ι : Type} {Ans : Op → Type} {ε α σ : Type}

/-- What was done in one turn. -/
inductive Turn (Op : Type) (Ans : Op → Type) (ε α ι : Type) where
  | ran (i : ι) (events : List (Event Op Ans ε)) (outcome : Except ε α)
  | idled

/-- A turn between two states. -/
structure Entry (Op : Type) (Ans : Op → Type) (ε α ι σ : Type) where
  before : σ
  turn : Turn Op Ans ε α ι
  after : σ

/-- **A session**: the body `body i` of each turn runs alone under `rel`; between turns the state
    moves by `idle`. -/
inductive Session (rel : σ → (o : Op) → Except ε (Ans o) → σ → Prop) (idle : σ → σ → Prop)
    (body : ι → Proc Op Ans ε α) (s₀ : σ) : List (Entry Op Ans ε α ι σ) → σ → Prop where
  | start : Session rel idle body s₀ [] s₀
  | ran {tr : List (Entry Op Ans ε α ι σ)} {s s' : σ} {i : ι} {es : List (Event Op Ans ε)}
      {x : Except ε α} (h : Session rel idle body s₀ tr s) (hrun : Exec rel (body i) s es x s') :
      Session rel idle body s₀ (⟨s, .ran i es x, s'⟩ :: tr) s'
  | idled {tr : List (Entry Op Ans ε α ι σ)} {s s' : σ} (h : Session rel idle body s₀ tr s)
      (hidle : idle s s') : Session rel idle body s₀ (⟨s, .idled, s'⟩ :: tr) s'

variable {rel : σ → (o : Op) → Except ε (Ans o) → σ → Prop} {idle : σ → σ → Prop}
  {body : ι → Proc Op Ans ε α} {s₀ s : σ} {tr : List (Entry Op Ans ε α ι σ)}

/-- **The rule of invariants**, for sessions whose turns are all `ok`. -/
theorem Session.invariant (ok : Entry Op Ans ε α ι σ → Prop)
    (Inv : List (Entry Op Ans ε α ι σ) → σ → Prop) (hstart : Inv [] s₀)
    (hran : ∀ {tr s i es x s'}, Inv tr s → Exec rel (body i) s es x s' → ok ⟨s, .ran i es x, s'⟩ →
      Inv (⟨s, .ran i es x, s'⟩ :: tr) s')
    (hidled : ∀ {tr s s'}, Inv tr s → idle s s' → Inv (⟨s, .idled, s'⟩ :: tr) s')
    (h : Session rel idle body s₀ tr s) (hok : ∀ e ∈ tr, ok e) : Inv tr s := by
  induction h with
  | start => exact hstart
  | ran _ hrun ih =>
    exact hran (ih fun e he => hok e (List.mem_cons_of_mem _ he)) hrun (hok _ List.mem_cons_self)
  | idled _ hidle ih => exact hidled (ih fun e he => hok e (List.mem_cons_of_mem _ he)) hidle

/-- A turn of a session ends a session of its own. -/
theorem Session.turn_mem (h : Session rel idle body s₀ tr s) {e : Entry Op Ans ε α ι σ} (he : e ∈ tr) :
    ∃ tr', Session rel idle body s₀ tr' e.before ∧ Session rel idle body s₀ (e :: tr') e.after ∧
      e :: tr' <:+ tr := by
  induction h with
  | start => exact absurd he List.not_mem_nil
  | ran h hrun ih =>
    rcases List.mem_cons.mp he with rfl | he
    · exact ⟨_, h, .ran h hrun, List.suffix_refl _⟩
    · obtain ⟨tr', hbefore, hafter, hsuffix⟩ := ih he
      exact ⟨tr', hbefore, hafter, hsuffix.trans (List.suffix_cons _ _)⟩
  | idled h hidle ih =>
    rcases List.mem_cons.mp he with rfl | he
    · exact ⟨_, h, .idled h hidle, List.suffix_refl _⟩
    · obtain ⟨tr', hbefore, hafter, hsuffix⟩ := ih he
      exact ⟨tr', hbefore, hafter, hsuffix.trans (List.suffix_cons _ _)⟩

end Async
