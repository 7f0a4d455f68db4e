/-
  File:      InvoiceOcr/Async/Effects.lean
  Subject:   THE EFFECTS OF A BODY. Which calls a body makes and which exceptions leave it, on answers
             of a given kind. Nothing here names a program.

  * `Bounded C A P p` -- on answers in `A` the body makes calls in `C` only, and raises in `P` only: the
    weakest precondition under a monitor without situations;
  * `bounded_tryElse` and its cases -- the rules, one per way of composing bodies;
  * **`Run.bounded_rule`** -- in a run whose answers are in `A` every task keeps its bounds.
-/
import InvoiceOcr.Async.System

namespace Async

variable {Op : Type} {Ans : Op → Type} {ε α β W N : Type}

/-- Where the exception of a computation without calls comes from. -/
theorem bind_eq_error {x : Except ε α} {f : α → Except ε β} {e : ε} (h : x >>= f = .error e) :
    x = .error e ∨ ∃ a, x = .ok a ∧ f a = .error e := by
  cases x with
  | error e' => cases h; exact Or.inl rfl
  | ok a => exact Or.inr ⟨a, rfl, h⟩

/-- Calls in `C`, answers in `A`, no situations. -/
def flat (C : Op → Prop) (A : (o : Op) → Except ε (Ans o) → Prop) : Monitor Op Ans ε Unit where
  pre _ o := C o
  rely _ o r := A o r
  next _ _ _ := ()

/-- **The effects of a body.** -/
def Bounded (C : Op → Prop) (A : (o : Op) → Except ε (Ans o) → Prop) (P : ε → Prop)
    (p : Proc Op Ans ε α) : Prop :=
  wp (flat C A) (fun x _ => ∀ e, x = .error e → P e) p ()

section Rules

variable {C : Op → Prop} {A : (o : Op) → Except ε (Ans o) → Prop} {P P' : ε → Prop}

theorem bounded_ret (a : α) : Bounded C A P (.ret a : Proc Op Ans ε α) := nofun

theorem bounded_raise {e : ε} (h : P e) : Bounded C A P (.raise e : Proc Op Ans ε α) := by
  intro e' he
  cases he
  exact h

/-- `try … except … else`: the handler may count on what the body raises. -/
theorem bounded_tryElse {p : Proc Op Ans ε α} {h : ε → Proc Op Ans ε β} {k : α → Proc Op Ans ε β}
    (hp : Bounded C A P p) (hk : ∀ a, Bounded C A P' (k a)) (hh : ∀ e, P e → Bounded C A P' (h e)) :
    Bounded C A P' (p.tryElse h k) :=
  wp_tryElse_of hp (fun a _ _ => hk a) fun e _ he => hh e (he e rfl)

theorem bounded_bind {p : Proc Op Ans ε α} {f : α → Proc Op Ans ε β} (hp : Bounded C A P p)
    (hf : ∀ a, Bounded C A P (f a)) : Bounded C A P (p >>= f) :=
  bounded_tryElse hp hf fun _ he => bounded_raise he

theorem bounded_tryCatch {p : Proc Op Ans ε α} {h : ε → Proc Op Ans ε α} (hp : Bounded C A P p)
    (hh : ∀ e, P e → Bounded C A P' (h e)) : Bounded C A P' (p.tryCatch h) :=
  bounded_tryElse hp bounded_ret hh

theorem bounded_await {o : Op} (ho : C o) (he : ∀ e, A o (.error e) → P e) :
    Bounded C A P (Proc.await o : Proc Op Ans ε (Ans o)) := by
  refine (wp_await _ _).mpr ⟨ho, fun r hr e hx => ?_⟩
  subst hx
  exact he e hr

/-- One call whose exceptions are mapped. -/
theorem bounded_mapped {o : Op} {f : ε → ε} (ho : C o) (he : ∀ e, A o (.error e) → P (f e)) :
    Bounded C A P ((Proc.await o : Proc Op Ans ε (Ans o)).tryCatch fun e => .raise (f e)) :=
  bounded_tryCatch (bounded_await ho fun _ hr => hr) fun e hr => bounded_raise (he e hr)

theorem bounded_ofExcept {x : Except ε α} (h : ∀ e, x = .error e → P e) :
    Bounded C A P (Proc.ofExcept x : Proc Op Ans ε α) :=
  (wp_ofExcept x ()).mpr h

/-- Consequence. -/
theorem bounded_mono (hP : ∀ e, P e → P' e) {p : Proc Op Ans ε α} (h : Bounded C A P p) :
    Bounded C A P' p :=
  wp_mono (fun _ _ hr e he => hP e (hr e he)) h

/-- Exceptions in `c` are suppressed. -/
theorem bounded_suppress {p : Proc Op Ans ε α} {c : ε → Bool} {a : α} (hp : Bounded C A P p) :
    Bounded C A P (p.tryCatch fun e => if c e then .ret a else .raise e) := by
  refine bounded_tryCatch hp fun e he => ?_
  split
  · exact bounded_ret a
  · exact bounded_raise he

end Rules

/-! ## Runs -/

variable {S : Sys Op Ans ε W N} {C : Op → Prop} {A : (o : Op) → Except ε (Ans o) → Prop}
  {P : ε → Prop} {w₀ : W} {tr : Trace Op Ans ε W N} {s : State Op Ans ε W N}

/-- A step whose answer is in `A`. -/
def AnswersIn (A : (o : Op) → Except ε (Ans o) → Prop) (l : Label Op Ans ε N) : Prop :=
  ∀ i o r, l = .call i o r → A o r

/-- **Every task keeps its bounds**, in every run whose answers are in `A`. -/
theorem Sys.Run.bounded_rule (hboot : ∀ n, Bounded C A P (S.boot n)) (h : S.Run w₀ tr s)
    (hA : ∀ e ∈ tr, AnswersIn A e.2) : ∀ t ∈ s.tasks, Bounded C A P t.rest := by
  induction h with
  | start => exact fun t ht => absurd ht List.not_mem_nil
  | step h hs ih =>
    have ih := ih fun e he => hA e (List.mem_cons_of_mem _ he)
    intro t ht
    cases hs with
    | @call i n o k r w' hi _ =>
      rcases List.mem_or_eq_of_mem_set ht with ht | rfl
      · exact ih t ht
      · exact (ih _ (List.mem_of_getElem? hi)).2 r (hA _ List.mem_cons_self i o r rfl)
    | @spawn n _ =>
      rcases List.mem_append.mp ht with ht | ht
      · exact ih t ht
      · cases List.mem_singleton.mp ht
        exact hboot n
    | drift => exact ih t ht

end Async
