/-
  File:      InvoiceOcr/Async/Proc.lean
  Subject:   PROCESSES THAT AWAIT CALLS. The body of a coroutine as a tree: at each node it
             awaits one call of its environment and goes on with whatever comes back, a value or
             an exception. Nothing here names a program.

  * `Proc Op Ans ε α` -- a body that calls operations `o : Op`, gets an `Ans o` or an `ε` back,
    and ends with an `α` or by raising an `ε`;
  * `tryElse` -- `try … except … else …`; `bind` and `tryCatch` are cases of it;
  * `Exec` -- one body run alone against a call semantics, with the events of the run in order;
    `exec_tryElse` and the rules before it take a run apart;
  * `Reaches` -- some call of one kind lies ahead, with no call of another kind before it.
-/
import Mathlib.Data.List.Basic

namespace Async

/-- **A coroutine body.** `call o k` awaits the call `o` and continues with `k` on the outcome. -/
inductive Proc (Op : Type) (Ans : Op → Type) (ε α : Type) : Type where
  | ret (a : α) : Proc Op Ans ε α
  | raise (e : ε) : Proc Op Ans ε α
  | call (o : Op) (k : Except ε (Ans o) → Proc Op Ans ε α) : Proc Op Ans ε α

variable {Op : Type} {Ans : Op → Type} {ε α β γ σ : Type}

/-- One answered call: the operation and what came back. -/
structure Event (Op : Type) (Ans : Op → Type) (ε : Type) where
  op : Op
  reply : Except ε (Ans op)

namespace Proc

/-! ## 1. Composition -/

/-- `try: p` / `except e: h e` / `else: k a`. An exception of `h` or `k` is not handled here. -/
def tryElse (p : Proc Op Ans ε α) (h : ε → Proc Op Ans ε β) (k : α → Proc Op Ans ε β) :
    Proc Op Ans ε β :=
  match p with
  | .ret a => k a
  | .raise e => h e
  | .call o c => .call o fun r => (c r).tryElse h k

/-- Sequencing: an exception of `p` passes through. -/
def bind (p : Proc Op Ans ε α) (f : α → Proc Op Ans ε β) : Proc Op Ans ε β := p.tryElse .raise f

/-- `try: p` / `except e: h e`. -/
def tryCatch (p : Proc Op Ans ε α) (h : ε → Proc Op Ans ε α) : Proc Op Ans ε α := p.tryElse h .ret

instance : Monad (Proc Op Ans ε) where
  pure := .ret
  bind := bind

/-- Await one call. -/
def await (o : Op) : Proc Op Ans ε (Ans o) :=
  .call o fun
    | .ok a => .ret a
    | .error e => .raise e

/-- A step without a call that returns or raises. -/
def ofExcept : Except ε α → Proc Op Ans ε α
  | .ok a => .ret a
  | .error e => .raise e

/-- What a computation without calls came through. -/
theorem bind_eq_ok {x : Except ε α} {f : α → Except ε β} {b : β} (h : x >>= f = .ok b) :
    ∃ a, x = .ok a ∧ f a = .ok b := by
  cases x with
  | error e => cases h
  | ok a => exact ⟨a, rfl, h⟩

/-- The body has run to its end, by returning or by raising. -/
def Ended : Proc Op Ans ε α → Prop
  | .call _ _ => False
  | _ => True

instance (p : Proc Op Ans ε α) : Decidable p.Ended :=
  match p with
  | .ret _ => isTrue trivial
  | .raise _ => isTrue trivial
  | .call _ _ => isFalse not_false

/-! ## 2. What lies ahead -/

/-- Along some outcomes the body makes a call in `hit`, with no call in `stop` before it. -/
def Reaches (hit stop : Op → Prop) : Proc Op Ans ε α → Prop
  | .ret _ => False
  | .raise _ => False
  | .call o k => hit o ∨ (¬ stop o ∧ ∃ r, (k r).Reaches hit stop)

/-- What lies ahead of a continuation lay ahead of the call, unless the call stops the search. -/
theorem reaches_of_reply {hit stop : Op → Prop} {o : Op}
    {k : Except ε (Ans o) → Proc Op Ans ε α} (hs : ¬ stop o) {r : Except ε (Ans o)}
    (h : (k r).Reaches hit stop) : (Proc.call o k).Reaches hit stop :=
  Or.inr ⟨hs, r, h⟩

/-- A call in `hit` at the head is reached. -/
theorem reaches_head {hit stop : Op → Prop} {o : Op} (k : Except ε (Ans o) → Proc Op Ans ε α)
    (h : hit o) : (Proc.call o k).Reaches hit stop :=
  Or.inl h

end Proc

/-! ## 3. A body run alone -/

/-- The big-step run of one body: `rel s o r s'` says the call `o` made in `s` may be answered
    by `r` and leave `s'`. The events are in the order of the run. -/
inductive Exec (rel : σ → (o : Op) → Except ε (Ans o) → σ → Prop) :
    Proc Op Ans ε α → σ → List (Event Op Ans ε) → Except ε α → σ → Prop where
  | ret (a : α) (s : σ) : Exec rel (.ret a) s [] (.ok a) s
  | raise (e : ε) (s : σ) : Exec rel (.raise e) s [] (.error e) s
  | call {o : Op} {k : Except ε (Ans o) → Proc Op Ans ε α} {s s' s'' : σ}
      {r : Except ε (Ans o)} {es : List (Event Op Ans ε)} {x : Except ε α}
      (h : rel s o r s') (hk : Exec rel (k r) s' es x s'') :
      Exec rel (.call o k) s (⟨o, r⟩ :: es) x s''

section Rules

variable {rel : σ → (o : Op) → Except ε (Ans o) → σ → Prop} {s s'' : σ} {es : List (Event Op Ans ε)}

@[simp] theorem exec_ret (a : α) (x : Except ε α) :
    Exec rel (.ret a : Proc Op Ans ε α) s es x s'' ↔ es = [] ∧ x = .ok a ∧ s'' = s := by
  constructor
  · intro h
    cases h
    exact ⟨rfl, rfl, rfl⟩
  · intro hrun
    obtain ⟨rfl, rfl, rfl⟩ := hrun
    exact .ret a s''

@[simp] theorem exec_raise (e : ε) (x : Except ε α) :
    Exec rel (.raise e : Proc Op Ans ε α) s es x s'' ↔ es = [] ∧ x = .error e ∧ s'' = s := by
  constructor
  · intro h
    cases h
    exact ⟨rfl, rfl, rfl⟩
  · intro hrun
    obtain ⟨rfl, rfl, rfl⟩ := hrun
    exact .raise e s''

theorem exec_call (o : Op) (k : Except ε (Ans o) → Proc Op Ans ε α) (x : Except ε α) :
    Exec rel (.call o k) s es x s'' ↔
      ∃ r s' es', rel s o r s' ∧ Exec rel (k r) s' es' x s'' ∧ es = ⟨o, r⟩ :: es' := by
  constructor
  · intro h
    cases h with
    | call h hk => exact ⟨_, _, _, h, hk, rfl⟩
  · intro hrun
    obtain ⟨r, s', es', h, hk, rfl⟩ := hrun
    exact .call h hk

theorem exec_await (o : Op) (x : Except ε (Ans o)) :
    Exec rel (Proc.await o : Proc Op Ans ε (Ans o)) s es x s'' ↔ rel s o x s'' ∧ es = [⟨o, x⟩] := by
  refine (exec_call o _ x).trans ⟨?_, fun ⟨h, he⟩ => ⟨x, s'', [], h, ?_, he⟩⟩
  · intro hrun
    obtain ⟨r, s', es', h, hk, rfl⟩ := hrun
    cases r <;> cases hk <;> exact ⟨h, rfl⟩
  · cases x
    · exact .raise _ _
    · exact .ret _ _

/-- **A run of `try … except … else`** is a run of the body, then one of the branch it selects. -/
theorem exec_tryElse (p : Proc Op Ans ε α) (h : ε → Proc Op Ans ε β) (k : α → Proc Op Ans ε β)
    (x : Except ε β) :
    Exec rel (p.tryElse h k) s es x s'' ↔
      ∃ es₁ s' es₂, es = es₁ ++ es₂ ∧
        ((∃ a, Exec rel p s es₁ (.ok a) s' ∧ Exec rel (k a) s' es₂ x s'') ∨
          ∃ e, Exec rel p s es₁ (.error e) s' ∧ Exec rel (h e) s' es₂ x s'') := by
  induction p generalizing s es with
  | ret a =>
    constructor
    · exact fun hx => ⟨[], s, es, rfl, Or.inl ⟨a, .ret a s, hx⟩⟩
    · intro hrun
      rcases hrun with ⟨es₁, s', es₂, rfl, ⟨a', hp, hx⟩ | ⟨e, hp, hx⟩⟩ <;> cases hp
      exact hx
  | raise e =>
    constructor
    · exact fun hx => ⟨[], s, es, rfl, Or.inr ⟨e, .raise e s, hx⟩⟩
    · intro hrun
      rcases hrun with ⟨es₁, s', es₂, rfl, ⟨a', hp, hx⟩ | ⟨e', hp, hx⟩⟩ <;> cases hp
      exact hx
  | call o c ih =>
    constructor
    · intro hx
      obtain ⟨r, s₁, es', hrel, hk, rfl⟩ := (exec_call o _ x).mp hx
      obtain ⟨es₁, s', es₂, rfl, ⟨a, hp, hx⟩ | ⟨e, hp, hx⟩⟩ := (ih r).mp hk
      · exact ⟨⟨o, r⟩ :: es₁, s', es₂, rfl, Or.inl ⟨a, .call hrel hp, hx⟩⟩
      · exact ⟨⟨o, r⟩ :: es₁, s', es₂, rfl, Or.inr ⟨e, .call hrel hp, hx⟩⟩
    · intro hrun
      rcases hrun with ⟨es₁, s', es₂, rfl, ⟨a, hp, hx⟩ | ⟨e, hp, hx⟩⟩
      · obtain ⟨r, s₁, es', hrel, hk, rfl⟩ := (exec_call o _ _).mp hp
        exact .call hrel ((ih r).mpr ⟨es', s', es₂, rfl, Or.inl ⟨a, hk, hx⟩⟩)
      · obtain ⟨r, s₁, es', hrel, hk, rfl⟩ := (exec_call o _ _).mp hp
        exact .call hrel ((ih r).mpr ⟨es', s', es₂, rfl, Or.inr ⟨e, hk, hx⟩⟩)

@[simp] theorem exec_ofExcept (y x : Except ε α) :
    Exec rel (Proc.ofExcept y : Proc Op Ans ε α) s es x s'' ↔ es = [] ∧ x = y ∧ s'' = s := by
  cases y with
  | ok a => exact exec_ret a x
  | error e => exact exec_raise e x

/-- **A run of a sequence.** -/
theorem exec_bind (p : Proc Op Ans ε α) (f : α → Proc Op Ans ε β) (x : Except ε β) :
    Exec rel (p.bind f) s es x s'' ↔
      (∃ es₁ s' es₂ a, es = es₁ ++ es₂ ∧ Exec rel p s es₁ (.ok a) s' ∧ Exec rel (f a) s' es₂ x s'') ∨
        ∃ e, Exec rel p s es (.error e) s'' ∧ x = .error e := by
  refine (exec_tryElse p .raise f x).trans ⟨?_, ?_⟩
  · intro hrun
    rcases hrun with ⟨es₁, s', es₂, rfl, ⟨a, hp, hx⟩ | ⟨e, hp, hx⟩⟩
    · exact Or.inl ⟨es₁, s', es₂, a, rfl, hp, hx⟩
    · obtain ⟨rfl, rfl, rfl⟩ := (exec_raise e x).mp hx
      exact Or.inr ⟨e, by rw [List.append_nil]; exact hp, rfl⟩
  · intro hrun
    rcases hrun with ⟨es₁, s', es₂, a, rfl, hp, hx⟩ | ⟨e, hp, rfl⟩
    · exact ⟨es₁, s', es₂, rfl, Or.inl ⟨a, hp, hx⟩⟩
    · exact ⟨es, s'', [], (List.append_nil es).symm, Or.inr ⟨e, hp, .raise e s''⟩⟩

/-- A run of a body whose exceptions are mapped. -/
theorem exec_mapError (p : Proc Op Ans ε α) (f : ε → ε) (x : Except ε α) :
    Exec rel (p.tryCatch fun e => .raise (f e)) s es x s'' ↔
      ∃ y, Exec rel p s es y s'' ∧ x = y.mapError f := by
  refine (exec_tryElse p _ _ x).trans ⟨?_, ?_⟩
  · intro hrun
    rcases hrun with ⟨es₁, s', es₂, rfl, ⟨a, hp, hx⟩ | ⟨e, hp, hx⟩⟩
    · obtain ⟨rfl, rfl, rfl⟩ := (exec_ret a x).mp hx
      exact ⟨.ok a, by rw [List.append_nil]; exact hp, rfl⟩
    · obtain ⟨rfl, rfl, rfl⟩ := (exec_raise _ x).mp hx
      exact ⟨.error e, by rw [List.append_nil]; exact hp, rfl⟩
  · intro hrun
    obtain ⟨y, hp, rfl⟩ := hrun
    cases y with
    | ok a => exact ⟨es, s'', [], (List.append_nil es).symm, Or.inl ⟨a, hp, .ret a s''⟩⟩
    | error e => exact ⟨es, s'', [], (List.append_nil es).symm, Or.inr ⟨e, hp, .raise _ s''⟩⟩

/-- A run of one call whose exceptions are mapped. -/
theorem exec_mapped (o : Op) (f : ε → ε) (x : Except ε (Ans o)) :
    Exec rel ((Proc.await o).tryCatch fun e => .raise (f e)) s es x s'' ↔
      ∃ r, rel s o r s'' ∧ es = [⟨o, r⟩] ∧ x = r.mapError f := by
  refine (exec_mapError _ f x).trans (exists_congr fun r => ?_)
  rw [exec_await, and_assoc]

/-- A run of a semantics is one of every wider semantics. -/
theorem Exec.mono {rel' : σ → (o : Op) → Except ε (Ans o) → σ → Prop}
    (hrel : ∀ s o r s', rel s o r s' → rel' s o r s') {p : Proc Op Ans ε α} {x : Except ε α}
    (h : Exec rel p s es x s'') : Exec rel' p s es x s'' := by
  induction h with
  | ret a s => exact .ret a s
  | raise e s => exact .raise e s
  | call hc _ ih => exact .call (hrel _ _ _ _ hc) ih

/-- Where every call has one answer, a body has one run. -/
theorem exec_unique (hrel : ∀ {s o r s' r' s''}, rel s o r s' → rel s o r' s'' → r = r' ∧ s' = s'')
    {p : Proc Op Ans ε α} {x x' : Except ε α} {es' : List (Event Op Ans ε)} {s' : σ}
    (h : Exec rel p s es x s') (h' : Exec rel p s es' x' s'') : x = x' ∧ s' = s'' := by
  induction h generalizing es' with
  | ret a s =>
    obtain ⟨_, rfl, rfl⟩ := (exec_ret a x').mp h'
    exact ⟨rfl, rfl⟩
  | raise e s =>
    obtain ⟨_, rfl, rfl⟩ := (exec_raise e x').mp h'
    exact ⟨rfl, rfl⟩
  | call hc hk ih =>
    obtain ⟨r, s₁, es₁, hc', hk', rfl⟩ := (exec_call _ _ x').mp h'
    obtain ⟨rfl, rfl⟩ := hrel hc hc'
    exact ih hk'

end Rules

/-- A handler answers every call: the deterministic interpreter of a body. -/
def Proc.interp (h : σ → (o : Op) → Except ε (Ans o) × σ) : Proc Op Ans ε α → σ → Except ε α × σ
  | .ret a, s => (.ok a, s)
  | .raise e, s => (.error e, s)
  | .call o k, s => (k (h s o).1).interp h (h s o).2

section Interp

variable (h : σ → (o : Op) → Except ε (Ans o) × σ)

@[simp] theorem interp_ret (a : α) (s : σ) :
    (Proc.ret a : Proc Op Ans ε α).interp h s = (.ok a, s) := rfl

@[simp] theorem interp_raise (e : ε) (s : σ) :
    (Proc.raise e : Proc Op Ans ε α).interp h s = (.error e, s) := rfl

@[simp] theorem interp_pure (a : α) (s : σ) :
    (pure a : Proc Op Ans ε α).interp h s = (.ok a, s) := rfl

/-- The interpreter runs `p`, then the branch its outcome selects. -/
theorem interp_tryElse (p : Proc Op Ans ε α) (hd : ε → Proc Op Ans ε β) (k : α → Proc Op Ans ε β)
    (s : σ) :
    (p.tryElse hd k).interp h s =
      match p.interp h s with
      | (.ok a, s') => (k a).interp h s'
      | (.error e, s') => (hd e).interp h s' := by
  induction p generalizing s with
  | ret a => rfl
  | raise e => rfl
  | call o c ih => exact ih _ _

theorem interp_bind (p : Proc Op Ans ε α) (f : α → Proc Op Ans ε β) (s : σ) :
    (p >>= f).interp h s =
      match p.interp h s with
      | (.ok a, s') => (f a).interp h s'
      | (.error e, s') => (.error e, s') :=
  interp_tryElse h p .raise f s

theorem interp_tryCatch (p : Proc Op Ans ε α) (hd : ε → Proc Op Ans ε α) (s : σ) :
    (p.tryCatch hd).interp h s =
      match p.interp h s with
      | (.ok a, s') => (.ok a, s')
      | (.error e, s') => (hd e).interp h s' :=
  interp_tryElse h p hd .ret s

@[simp] theorem interp_await (o : Op) (s : σ) :
    (Proc.await o : Proc Op Ans ε (Ans o)).interp h s = h s o := by
  show ((match (h s o).1 with | .ok a => Proc.ret a | .error e => .raise e) :
    Proc Op Ans ε (Ans o)).interp h (h s o).2 = h s o
  obtain ⟨r, s'⟩ := h s o
  cases r <;> rfl

@[simp] theorem interp_ofExcept (x : Except ε α) (s : σ) :
    (Proc.ofExcept x : Proc Op Ans ε α).interp h s = (x, s) := by
  cases x <;> rfl

/-- The events of the interpreted body. -/
def Proc.events : Proc Op Ans ε α → σ → List (Event Op Ans ε)
  | .ret _, _ => []
  | .raise _, _ => []
  | .call o k, s => ⟨o, (h s o).1⟩ :: (k (h s o).1).events (h s o).2

/-- An interpreted body is a run of every semantics that admits the handler's answers. -/
theorem exec_events {rel : σ → (o : Op) → Except ε (Ans o) → σ → Prop}
    (hrel : ∀ s o, rel s o (h s o).1 (h s o).2) (p : Proc Op Ans ε α) (s : σ) :
    Exec rel p s (p.events h s) (p.interp h s).1 (p.interp h s).2 := by
  induction p generalizing s with
  | ret a => exact .ret a s
  | raise e => exact .raise e s
  | call o k ih => exact .call (hrel s o) (ih _ _)

theorem exec_interp {rel : σ → (o : Op) → Except ε (Ans o) → σ → Prop}
    (hrel : ∀ s o, rel s o (h s o).1 (h s o).2) (p : Proc Op Ans ε α) (s : σ) :
    ∃ es, Exec rel p s es (p.interp h s).1 (p.interp h s).2 :=
  ⟨_, exec_events h hrel p s⟩

end Interp

end Async
