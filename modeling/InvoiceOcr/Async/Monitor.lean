/-
  File:      InvoiceOcr/Async/Monitor.lean
  Subject:   MONITORS AND THEIR WEAKEST PRECONDITION. A monitor is a small state machine that
             watches the calls of one body: in each situation it says which calls the body may
             make (`pre`), which outcomes the body may count on (`rely`), and which situation an
             outcome leads to (`next`).

  * `wp M Q p s` -- from situation `s` the body `p` makes only permitted calls, and ends with an
    outcome and a situation in `Q`; `wp_tryElse` and its cases are the rules of the logic;
  * `wp_mono` -- consequence; `wp_quiet` -- a body whose calls the monitor ignores;
  * `exec_follow` -- a body run ALONE keeps every invariant of world and situation that each
    permitted call keeps;
  * `not_reaches_of_wp` -- what a monitor never permits is not reached.
-/
import InvoiceOcr.Async.Proc

namespace Async

variable {Op : Type} {Ans : Op → Type} {ε α β σ W : Type}

/-- **A monitor** over the calls of one body. -/
structure Monitor (Op : Type) (Ans : Op → Type) (ε σ : Type) where
  pre : σ → Op → Prop
  rely : σ → (o : Op) → Except ε (Ans o) → Prop
  next : σ → (o : Op) → Except ε (Ans o) → σ

/-- **The weakest precondition** of a body under a monitor. -/
def wp (M : Monitor Op Ans ε σ) (Q : Except ε α → σ → Prop) : Proc Op Ans ε α → σ → Prop
  | .ret a, s => Q (.ok a) s
  | .raise e, s => Q (.error e) s
  | .call o k, s => M.pre s o ∧ ∀ r, M.rely s o r → wp M Q (k r) (M.next s o r)

/-! ## 1. Rules -/

section Rules

variable {M : Monitor Op Ans ε σ} {Q : Except ε β → σ → Prop}

@[simp] theorem wp_ret (Q : Except ε α → σ → Prop) (a : α) (s : σ) :
    wp M Q (.ret a) s = Q (.ok a) s := rfl

@[simp] theorem wp_raise (Q : Except ε α → σ → Prop) (e : ε) (s : σ) :
    wp M Q (.raise e) s = Q (.error e) s := rfl

@[simp] theorem wp_pure (Q : Except ε α → σ → Prop) (a : α) (s : σ) :
    wp M Q (pure a : Proc Op Ans ε α) s = Q (.ok a) s := rfl

/-- What a body must establish for the branch its outcome selects. -/
def branch (M : Monitor Op Ans ε σ) (Q : Except ε β → σ → Prop) (h : ε → Proc Op Ans ε β)
    (k : α → Proc Op Ans ε β) : Except ε α → σ → Prop
  | .ok a, s => wp M Q (k a) s
  | .error e, s => wp M Q (h e) s

@[simp] theorem branch_ok (h : ε → Proc Op Ans ε β) (k : α → Proc Op Ans ε β) (a : α) (s : σ) :
    branch M Q h k (.ok a) s = wp M Q (k a) s := rfl

@[simp] theorem branch_error (h : ε → Proc Op Ans ε β) (k : α → Proc Op Ans ε β) (e : ε) (s : σ) :
    branch M Q h k (.error e) s = wp M Q (h e) s := rfl

/-- **The rule of `try … except … else`.** -/
theorem wp_tryElse (p : Proc Op Ans ε α) (h : ε → Proc Op Ans ε β) (k : α → Proc Op Ans ε β)
    (s : σ) : wp M Q (p.tryElse h k) s ↔ wp M (branch M Q h k) p s := by
  induction p generalizing s with
  | ret a => rfl
  | raise e => rfl
  | call o c ih =>
    simp only [Proc.tryElse, wp]
    exact and_congr_right fun _ => forall_congr' fun r => imp_congr_right fun _ => ih r _

theorem wp_bind (p : Proc Op Ans ε α) (f : α → Proc Op Ans ε β) (s : σ) :
    wp M Q (p >>= f) s ↔ wp M (branch M Q .raise f) p s :=
  wp_tryElse p .raise f s

theorem wp_tryCatch (p : Proc Op Ans ε β) (h : ε → Proc Op Ans ε β) (s : σ) :
    wp M Q (p.tryCatch h) s ↔ wp M (branch M Q h .ret) p s :=
  wp_tryElse p h .ret s

theorem wp_await (o : Op) {Q : Except ε (Ans o) → σ → Prop} (s : σ) :
    wp M Q (Proc.await o) s ↔ M.pre s o ∧ ∀ r, M.rely s o r → Q r (M.next s o r) := by
  simp only [Proc.await, wp]
  refine and_congr_right fun _ => forall_congr' fun r => imp_congr_right fun _ => ?_
  cases r <;> rfl

theorem wp_ofExcept {Q : Except ε α → σ → Prop} (x : Except ε α) (s : σ) :
    wp M Q (Proc.ofExcept x) s ↔ Q x s := by
  cases x <;> rfl

/-- Consequence. -/
theorem wp_mono {Q Q' : Except ε α → σ → Prop} (hQ : ∀ r s, Q r s → Q' r s) {p : Proc Op Ans ε α}
    {s : σ} (h : wp M Q p s) : wp M Q' p s := by
  induction p generalizing s with
  | ret a => exact hQ _ _ h
  | raise e => exact hQ _ _ h
  | call o k ih => exact ⟨h.1, fun r hr => ih r (h.2 r hr)⟩

/-- Sequencing with a stated mid-condition. -/
theorem wp_tryElse_of {R : Except ε α → σ → Prop} {p : Proc Op Ans ε α} {h : ε → Proc Op Ans ε β}
    {k : α → Proc Op Ans ε β} {s : σ} (hp : wp M R p s)
    (hok : ∀ a s', R (.ok a) s' → wp M Q (k a) s')
    (herr : ∀ e s', R (.error e) s' → wp M Q (h e) s') : wp M Q (p.tryElse h k) s := by
  refine (wp_tryElse p h k s).mpr (wp_mono (fun r s' hr => ?_) hp)
  cases r with
  | ok a => exact hok a s' hr
  | error e => exact herr e s' hr

theorem wp_bind_of {R : Except ε α → σ → Prop} {p : Proc Op Ans ε α} {f : α → Proc Op Ans ε β}
    {s : σ} (hp : wp M R p s) (hok : ∀ a s', R (.ok a) s' → wp M Q (f a) s')
    (herr : ∀ e s', R (.error e) s' → Q (.error e) s') : wp M Q (p >>= f) s :=
  wp_tryElse_of hp hok herr

end Rules

/-! ## 2. Quiet bodies -/

/-- Every call of the body, on every path, lies in `P`. -/
def Proc.OnlyCalls (P : Op → Prop) : Proc Op Ans ε α → Prop
  | .ret _ => True
  | .raise _ => True
  | .call o k => P o ∧ ∀ r, (k r).OnlyCalls P

theorem onlyCalls_tryElse {P : Op → Prop} {p : Proc Op Ans ε α} {h : ε → Proc Op Ans ε β}
    {k : α → Proc Op Ans ε β} (hp : p.OnlyCalls P) (hh : ∀ e, (h e).OnlyCalls P)
    (hk : ∀ a, (k a).OnlyCalls P) : (p.tryElse h k).OnlyCalls P := by
  induction p with
  | ret a => exact hk a
  | raise e => exact hh e
  | call o c ih => exact ⟨hp.1, fun r => ih r (hp.2 r)⟩

theorem onlyCalls_bind {P : Op → Prop} {p : Proc Op Ans ε α} {f : α → Proc Op Ans ε β}
    (hp : p.OnlyCalls P) (hf : ∀ a, (f a).OnlyCalls P) : (p >>= f).OnlyCalls P :=
  onlyCalls_tryElse hp (fun _ => trivial) hf

theorem onlyCalls_await {P : Op → Prop} {o : Op} (h : P o) :
    (Proc.await o : Proc Op Ans ε (Ans o)).OnlyCalls P :=
  ⟨h, fun r => by cases r <;> trivial⟩

theorem onlyCalls_ofExcept {P : Op → Prop} (x : Except ε α) :
    (Proc.ofExcept x : Proc Op Ans ε α).OnlyCalls P := by
  cases x <;> trivial

theorem onlyCalls_mono {P P' : Op → Prop} (h : ∀ o, P o → P' o) {p : Proc Op Ans ε α}
    (hp : p.OnlyCalls P) : p.OnlyCalls P' := by
  induction p with
  | ret a => exact trivial
  | raise e => exact trivial
  | call o k ih => exact ⟨h o hp.1, fun r => ih r (hp.2 r)⟩

/-- The calls of a run are calls of the body. -/
theorem calls_of_exec {P : Op → Prop} {rel : W → (o : Op) → Except ε (Ans o) → W → Prop}
    {p : Proc Op Ans ε α} {w w' : W} {es : List (Event Op Ans ε)} {x : Except ε α}
    (h : Exec rel p w es x w') (hp : p.OnlyCalls P) : ∀ ev ∈ es, P ev.op := by
  induction h with
  | ret => exact fun _ hev => absurd hev List.not_mem_nil
  | raise => exact fun _ hev => absurd hev List.not_mem_nil
  | call _ _ ih => exact List.forall_mem_cons.mpr ⟨hp.1, ih (hp.2 _)⟩

/-- **A quiet body leaves the situation where it was**: the monitor permits its calls in `s` and
    no outcome of them moves it. -/
theorem wp_quiet {M : Monitor Op Ans ε σ} {P : Op → Prop} {Q : Except ε α → σ → Prop} {s : σ}
    (hpre : ∀ o, P o → M.pre s o) (hnext : ∀ o r, P o → M.next s o r = s) {p : Proc Op Ans ε α}
    (hp : p.OnlyCalls P) (hQ : ∀ r, Q r s) : wp M Q p s := by
  induction p with
  | ret a => exact hQ _
  | raise e => exact hQ _
  | call o k ih =>
    refine ⟨hpre o hp.1, fun r _ => ?_⟩
    rw [hnext o r hp.1]
    exact ih r (hp.2 r)

/-- **A quiet body that is run alone instead**: what its runs end with, on answers in `A`, may be
    taken for granted. -/
theorem wp_of_exec {M : Monitor Op Ans ε σ} {P : Op → Prop} {A : (o : Op) → Except ε (Ans o) → Prop}
    {Q : Except ε α → σ → Prop} {s : σ} (hpre : ∀ o, P o → M.pre s o)
    (hnext : ∀ o r, P o → M.next s o r = s) (hrely : ∀ o r, P o → M.rely s o r → A o r)
    {p : Proc Op Ans ε α} (hp : p.OnlyCalls P)
    (hQ : ∀ es x, Exec (fun (_ : Unit) o r (_ : Unit) => A o r) p () es x () → Q x s) :
    wp M Q p s := by
  induction p with
  | ret a => exact hQ [] _ (.ret a ())
  | raise e => exact hQ [] _ (.raise e ())
  | call o k ih =>
    refine ⟨hpre o hp.1, fun r hr => ?_⟩
    rw [hnext o r hp.1]
    have hA : A o r := hrely o r hp.1 hr
    exact ih r (hp.2 r) fun es x hx => hQ _ x (Exec.call hA hx)

/-! ## 3. A monitored body run alone -/

/-- **A body run alone keeps what every permitted call keeps.** `G` restricts the events of the
    run; `R` relates the events so far, the world and the situation. -/
theorem exec_follow {M : Monitor Op Ans ε σ} {rel : W → (o : Op) → Except ε (Ans o) → W → Prop}
    {G : Event Op Ans ε → Prop} {R : List (Event Op Ans ε) → W → σ → Prop}
    {Q : Except ε α → σ → Prop}
    (hstep : ∀ es w s o r w', R es w s → M.pre s o → rel w o r w' → G ⟨o, r⟩ →
      M.rely s o r ∧ R (es ++ [⟨o, r⟩]) w' (M.next s o r))
    {p : Proc Op Ans ε α} {w w' : W} {es : List (Event Op Ans ε)} {x : Except ε α}
    (hrun : Exec rel p w es x w') (hG : ∀ e ∈ es, G e) :
    ∀ {es₀ s}, wp M Q p s → R es₀ w s → ∃ s', Q x s' ∧ R (es₀ ++ es) w' s' := by
  induction hrun with
  | ret a w => intro es₀ s hp hR; exact ⟨s, hp, by simpa using hR⟩
  | raise e w => intro es₀ s hp hR; exact ⟨s, hp, by simpa using hR⟩
  | call h hk ih =>
    intro es₀ s hp hR
    obtain ⟨hrely, hR'⟩ := hstep _ _ _ _ _ _ hR hp.1 h (hG _ List.mem_cons_self)
    obtain ⟨s', hQ, hR''⟩ :=
      ih (fun e he => hG e (List.mem_cons_of_mem _ he)) (hp.2 _ hrely) hR'
    exact ⟨s', hQ, by simpa using hR''⟩

/-- The calls of a body lie in `P` when the monitor permits only those: `N` is a set of situations
    that is never left. -/
theorem onlyCalls_of_wp {M : Monitor Op Ans ε σ} {P : Op → Prop} {N : σ → Prop}
    (hpre : ∀ s o, N s → M.pre s o → P o) (hnext : ∀ s o r, N s → M.pre s o → N (M.next s o r))
    (hrely : ∀ s o r, M.rely s o r) {Q : Except ε α → σ → Prop} {p : Proc Op Ans ε α} {s : σ}
    (hp : wp M Q p s) (hs : N s) : p.OnlyCalls P := by
  induction p generalizing s with
  | ret a => exact trivial
  | raise e => exact trivial
  | call o k ih =>
    exact ⟨hpre s o hs hp.1, fun r => ih r (hp.2 r (hrely s o r)) (hnext s o r hs hp.1)⟩

/-- **What the monitor never permits is not reached**: `N` is a set of situations in which no
    call of `hit` is permitted and which only a call of `stop` leaves. -/
theorem not_reaches_of_wp {M : Monitor Op Ans ε σ} {hit stop : Op → Prop} {N : σ → Prop}
    (hhit : ∀ s o, N s → M.pre s o → ¬ hit o)
    (hnext : ∀ s o r, N s → M.pre s o → ¬ stop o → N (M.next s o r))
    (hrely : ∀ s o r, M.rely s o r) {Q : Except ε α → σ → Prop} {p : Proc Op Ans ε α} {s : σ}
    (hp : wp M Q p s) (hs : N s) : ¬ p.Reaches hit stop := by
  induction p generalizing s with
  | ret a => exact id
  | raise e => exact id
  | call o k ih =>
    intro hcase
    rcases hcase with h | ⟨hns, r, h⟩
    · exact hhit s o hs hp.1 h
    · exact ih r (hp.2 r (hrely s o r)) (hnext s o r hs hp.1 hns) h

end Async
