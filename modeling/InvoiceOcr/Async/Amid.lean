/-
  File:      InvoiceOcr/Async/Amid.lean
  Subject:   ONE BODY AMONG OTHERS. Nothing here names a program.

  * `Amid` -- the semantics of a body that shares its state: before each of its calls, others move;
  * `Driven` -- the events lead a body to its outcome; `driven_unique` -- only one way;
  * `exec_keeps` -- what every call of a body keeps, its run keeps;
  * **`exec_past`** -- a run of `try … except … else` that shows an event neither the body nor its
    handlers can show has gone through the body and into the `else`.
-/
import InvoiceOcr.Async.Monitor

namespace Async

variable {Op : Type} {Ans : Op → Type} {ε α β σ τ : Type}
  {rel : σ → (o : Op) → Except ε (Ans o) → σ → Prop} {s s' : σ} {es : List (Event Op Ans ε)}

/-- Before each call others move; the run ends with the last call. -/
def Amid (others : σ → σ → Prop) (rel : σ → (o : Op) → Except ε (Ans o) → σ → Prop) (s : σ)
    (o : Op) (r : Except ε (Ans o)) (s' : σ) : Prop :=
  ∃ s₁, others s s₁ ∧ rel s₁ o r s'

/-- A body run alone is run among others that do nothing. -/
theorem exec_amid {others : σ → σ → Prop} (hrefl : ∀ s, others s s) {p : Proc Op Ans ε α}
    {x : Except ε α} (h : Exec rel p s es x s') : Exec (Amid others rel) p s es x s' :=
  h.mono fun s _ _ _ hr => ⟨s, hrefl s, hr⟩

/-! ## 1. Events that lead to an outcome -/

abbrev Driven (p : Proc Op Ans ε α) (es : List (Event Op Ans ε)) (x : Except ε α) : Prop :=
  Exec (fun (_ : Unit) _ _ (_ : Unit) => True) p () es x ()

theorem Exec.driven {p : Proc Op Ans ε α} {x : Except ε α} (h : Exec rel p s es x s') :
    Driven p es x := by
  induction h with
  | ret a s => exact .ret a ()
  | raise e s => exact .raise e ()
  | call _ _ ih => exact .call trivial ih

/-- **Of one list of events a body reads one initial piece**, and comes to one outcome. -/
theorem driven_unique {p : Proc Op Ans ε α} {x x' : Except ε α}
    {es' rest rest' : List (Event Op Ans ε)} (h : Driven p es x) (h' : Driven p es' x')
    (heq : es ++ rest = es' ++ rest') : es = es' ∧ x = x' := by
  induction p generalizing es es' with
  | ret a =>
    obtain ⟨rfl, rfl, -⟩ := (exec_ret a x).mp h
    obtain ⟨rfl, rfl, -⟩ := (exec_ret a x').mp h'
    exact ⟨rfl, rfl⟩
  | raise e =>
    obtain ⟨rfl, rfl, -⟩ := (exec_raise e x).mp h
    obtain ⟨rfl, rfl, -⟩ := (exec_raise e x').mp h'
    exact ⟨rfl, rfl⟩
  | call o k ih =>
    obtain ⟨r, _, es₁, -, hk, rfl⟩ := (exec_call o k x).mp h
    obtain ⟨r', _, es₁', -, hk', rfl⟩ := (exec_call o k x').mp h'
    obtain ⟨hev, htail⟩ := List.cons.inj heq
    cases hev
    obtain ⟨rfl, hx⟩ := ih r hk hk' htail
    exact ⟨rfl, hx⟩

/-! ## 2. Runs of bodies that keep to some calls -/

/-- The events of a run are calls of its body. -/
theorem exec_mem {P : Op → Prop} {p : Proc Op Ans ε α} {x : Except ε α} (hp : p.OnlyCalls P)
    (h : Exec rel p s es x s') : ∀ ev ∈ es, P ev.op := by
  induction h with
  | ret a s => exact fun ev hev => absurd hev List.not_mem_nil
  | raise e s => exact fun ev hev => absurd hev List.not_mem_nil
  | call _ _ ih =>
    intro ev hev
    rcases List.mem_cons.mp hev with rfl | hev
    · exact hp.1
    · exact ih (hp.2 _) ev hev

/-- **What every call of the body keeps, the run keeps.** -/
theorem exec_keeps {P : Op → Prop} {f : σ → τ}
    (hrel : ∀ s o r s', P o → rel s o r s' → f s' = f s) {p : Proc Op Ans ε α} {x : Except ε α}
    (hp : p.OnlyCalls P) (h : Exec rel p s es x s') : f s' = f s := by
  induction h with
  | ret a s => rfl
  | raise e s => rfl
  | call hc _ ih => exact (ih (hp.2 _)).trans (hrel _ _ _ _ hp.1 hc)

/-- **Past the body.** -/
theorem exec_past {P : Op → Prop} {Q : Event Op Ans ε → Prop} (hQ : ∀ ev, P ev.op → ¬ Q ev)
    {p : Proc Op Ans ε α} {h : ε → Proc Op Ans ε β} {k : α → Proc Op Ans ε β} {x : Except ε β}
    (hp : p.OnlyCalls P) (hh : ∀ e, (h e).OnlyCalls P) (hrun : Exec rel (p.tryElse h k) s es x s')
    (hes : ∃ ev ∈ es, Q ev) :
    ∃ es₁ s₁ es₂ a, es = es₁ ++ es₂ ∧ Exec rel p s es₁ (.ok a) s₁ ∧
      Exec rel (k a) s₁ es₂ x s' ∧ ∃ ev ∈ es₂, Q ev := by
  obtain ⟨ev, hev, hq⟩ := hes
  obtain ⟨es₁, s₁, es₂, rfl, hbranch⟩ := (exec_tryElse p h k x).mp hrun
  rcases hbranch with ⟨a, hbody, hrest⟩ | ⟨e, hbody, hrest⟩
  · rcases List.mem_append.mp hev with hev | hev
    · exact absurd hq (hQ ev (exec_mem hp hbody ev hev))
    · exact ⟨es₁, s₁, es₂, a, rfl, hbody, hrest, ev, hev, hq⟩
  · rcases List.mem_append.mp hev with hev | hev
    · exact absurd hq (hQ ev (exec_mem hp hbody ev hev))
    · exact absurd hq (hQ ev (exec_mem (hh e) hrest ev hev))

end Async
