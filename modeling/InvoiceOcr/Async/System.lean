/-
  File:      InvoiceOcr/Async/System.lean
  Subject:   MANY TASKS OVER ONE WORLD, interleaved at every awaited call. Nothing here names a
             program.

  * `Sys` -- what one call may do to the shared world, what the world does by itself (`drift`),
    and the bodies tasks are started with;
  * `Step`, `Run` -- one step and the runs: any task may move next, new tasks may start at any
    time; a run carries every step with the state before it, the latest first;
  * `Protocol` -- a monitor every task of the system obeys from its start; `phases` reads the
    situation of each task off the trace alone;
  * **`run_invariant`** -- the induction rule: what every permitted call, every start and every
    drift preserves holds in every state reached, and each task obeys the protocol there;
  * `Run.mem` -- every step of a run started in a state the run had reached;
  * `Path`, `Run.path_invariant` -- the stretches of runs, and the same induction along one;
  * `Always`, `Run.always` -- what holds of every step of a run;
  * `Run.onlyCalls` -- a task keeps to the calls of the body it was started with.
-/
import InvoiceOcr.Async.Monitor

namespace Async

variable {Op : Type} {Ans : Op → Type} {ε σ W N : Type}

/-- **A system**: the meaning of the calls, the world's own steps, and the tasks there are. -/
structure Sys (Op : Type) (Ans : Op → Type) (ε W N : Type) where
  sem : W → (o : Op) → Except ε (Ans o) → W → Prop
  drift : W → W → Prop
  boot : N → Proc Op Ans ε Unit
  allow : List N → N → Prop

/-- A task: what it was started as, and what is left of its body. -/
structure Task (Op : Type) (Ans : Op → Type) (ε N : Type) where
  name : N
  rest : Proc Op Ans ε Unit

structure State (Op : Type) (Ans : Op → Type) (ε W N : Type) where
  world : W
  tasks : List (Task Op Ans ε N)

/-- What a step was. -/
inductive Label (Op : Type) (Ans : Op → Type) (ε N : Type) where
  | call (i : Nat) (o : Op) (r : Except ε (Ans o))
  | spawn (n : N)
  | drift

/-- The steps of a run with the states before them, the latest step first. -/
abbrev Trace (Op : Type) (Ans : Op → Type) (ε W N : Type) :=
  List (State Op Ans ε W N × Label Op Ans ε N)

namespace Sys

variable (S : Sys Op Ans ε W N)

/-- **One step**: a task's next call is answered, a task starts, or the world drifts. -/
inductive Step : State Op Ans ε W N → Label Op Ans ε N → State Op Ans ε W N → Prop where
  | call {s : State Op Ans ε W N} {i : Nat} {n : N} {o : Op}
      {k : Except ε (Ans o) → Proc Op Ans ε Unit} {r : Except ε (Ans o)} {w' : W}
      (ht : s.tasks[i]? = some ⟨n, .call o k⟩) (hs : S.sem s.world o r w') :
      Step s (.call i o r) ⟨w', s.tasks.set i ⟨n, k r⟩⟩
  | spawn {s : State Op Ans ε W N} {n : N} (ha : S.allow (s.tasks.map (·.name)) n) :
      Step s (.spawn n) ⟨s.world, s.tasks ++ [⟨n, S.boot n⟩]⟩
  | drift {s : State Op Ans ε W N} {w' : W} (hd : S.drift s.world w') :
      Step s .drift ⟨w', s.tasks⟩

/-- **The runs from a world with no task.** -/
inductive Run (w₀ : W) : Trace Op Ans ε W N → State Op Ans ε W N → Prop where
  | start : Run w₀ [] ⟨w₀, []⟩
  | step {tr : Trace Op Ans ε W N} {s s' : State Op Ans ε W N} {l : Label Op Ans ε N}
      (h : Run w₀ tr s) (hs : S.Step s l s') : Run w₀ ((s, l) :: tr) s'

/-- **A stretch of a run** from `s₀` on, every step of it with the state before it and the state
    after it in `G`. -/
inductive Path (G : State Op Ans ε W N → Label Op Ans ε N → State Op Ans ε W N → Prop)
    (s₀ : State Op Ans ε W N) : Trace Op Ans ε W N → State Op Ans ε W N → Prop where
  | start : Path G s₀ [] s₀
  | step {tr : Trace Op Ans ε W N} {s s' : State Op Ans ε W N} {l : Label Op Ans ε N}
      (h : Path G s₀ tr s) (hs : S.Step s l s') (hG : G s l s') : Path G s₀ ((s, l) :: tr) s'

/-- **A protocol of the system**: a monitor, the situation each kind of task starts in, what
    holds when a task has ended, and the proof that every task obeys. -/
structure Protocol (σ : Type) extends Monitor Op Ans ε σ where
  start : N → σ
  final : Except ε Unit → σ → Prop
  boots : ∀ n, wp toMonitor final (S.boot n) (start n)

end Sys

variable {S : Sys Op Ans ε W N}

namespace Sys.Protocol

variable (P : S.Protocol σ)

/-- The situations of all tasks, read off the trace. -/
def phases : Trace Op Ans ε W N → List σ
  | [] => []
  | (_, .call i o r) :: tr =>
    match (phases tr)[i]? with
    | some p => (phases tr).set i (P.next p o r)
    | none => phases tr
  | (_, .spawn n) :: tr => phases tr ++ [P.start n]
  | (_, .drift) :: tr => phases tr

/-- Every task of the state obeys the protocol from the situation the trace puts it in. -/
structure Obeyed (tr : Trace Op Ans ε W N) (s : State Op Ans ε W N) : Prop where
  length : s.tasks.length = (P.phases tr).length
  obeys : ∀ (i : Nat) (t : Task Op Ans ε N) (p : σ), s.tasks[i]? = some t →
    (P.phases tr)[i]? = some p → wp P.toMonitor P.final t.rest p

variable {P} {tr : Trace Op Ans ε W N} {s : State Op Ans ε W N}

/-- A task has a situation. -/
theorem Obeyed.phase (h : P.Obeyed tr s) {i : Nat} {t : Task Op Ans ε N}
    (ht : s.tasks[i]? = some t) : ∃ p, (P.phases tr)[i]? = some p := by
  have hlt : i < s.tasks.length := (List.getElem?_eq_some_iff.mp ht).1
  rw [h.length] at hlt
  exact ⟨_, List.getElem?_eq_getElem hlt⟩

/-- A situation belongs to a task. -/
theorem Obeyed.task (h : P.Obeyed tr s) {i : Nat} {p : σ} (hp : (P.phases tr)[i]? = some p) :
    ∃ t, s.tasks[i]? = some t := by
  have hlt : i < (P.phases tr).length := (List.getElem?_eq_some_iff.mp hp).1
  rw [← h.length] at hlt
  exact ⟨_, List.getElem?_eq_getElem hlt⟩

theorem phases_call {i : Nat} {p : σ} (hp : (P.phases tr)[i]? = some p) (o : Op)
    (r : Except ε (Ans o)) :
    P.phases ((s, .call i o r) :: tr) = (P.phases tr).set i (P.next p o r) := by
  simp only [phases, hp]

@[simp] theorem phases_spawn (n : N) :
    P.phases ((s, .spawn n) :: tr) = P.phases tr ++ [P.start n] := rfl

@[simp] theorem phases_drift : P.phases ((s, .drift) :: tr) = P.phases tr := rfl

/-- An answered call keeps obedience. -/
theorem Obeyed.call (h : P.Obeyed tr s) {i : Nat} {n : N} {o : Op}
    {k : Except ε (Ans o) → Proc Op Ans ε Unit} {r : Except ε (Ans o)} {p : σ} {w' : W}
    (ht : s.tasks[i]? = some ⟨n, .call o k⟩) (hp : (P.phases tr)[i]? = some p)
    (hr : P.rely p o r) :
    P.Obeyed ((s, .call i o r) :: tr) ⟨w', s.tasks.set i ⟨n, k r⟩⟩ where
  length := by
    rw [phases_call hp, List.length_set, List.length_set]
    exact h.length
  obeys j t q hj hq := by
    rw [phases_call hp] at hq
    by_cases hij : i = j
    · subst hij
      have hi := (List.getElem?_eq_some_iff.mp ht).1
      have hi' := (List.getElem?_eq_some_iff.mp hp).1
      rw [List.getElem?_set_self hi] at hj
      rw [List.getElem?_set_self hi'] at hq
      cases hj
      cases hq
      exact (h.obeys i _ p ht hp).2 r hr
    · rw [List.getElem?_set_ne hij] at hj hq
      exact h.obeys j t q hj hq

/-- A start keeps obedience. -/
theorem Obeyed.spawn (h : P.Obeyed tr s) (n : N) :
    P.Obeyed ((s, .spawn n) :: tr) ⟨s.world, s.tasks ++ [⟨n, S.boot n⟩]⟩ where
  length := by simp [h.length]
  obeys j t q hj hq := by
    rw [phases_spawn] at hq
    rcases Nat.lt_trichotomy j s.tasks.length with hlt | heq | hgt
    · rw [List.getElem?_append_left hlt] at hj
      rw [List.getElem?_append_left (h.length ▸ hlt)] at hq
      exact h.obeys j t q hj hq
    · subst heq
      rw [h.length] at hq
      simp only [List.getElem?_concat_length, Option.some.injEq] at hj hq
      subst hj hq
      exact P.boots n
    · rw [List.getElem?_eq_none (by simp; omega)] at hj
      simp at hj

theorem Obeyed.drift (h : P.Obeyed tr s) (w' : W) :
    P.Obeyed ((s, .drift) :: tr) ⟨w', s.tasks⟩ where
  length := h.length
  obeys := h.obeys

/-- **The induction over runs.** `G` restricts the steps of the run; `I` relates the trace, the
    state and the situations of its tasks. It is enough that every permitted call, every start
    and every drift preserve `I`, and that `I` delivers what the monitor relies on. -/
theorem run_invariant (P : S.Protocol σ) {w₀ : W}
    {G : State Op Ans ε W N → Label Op Ans ε N → Prop}
    {I : Trace Op Ans ε W N → State Op Ans ε W N → List σ → Prop}
    (hstart : I [] ⟨w₀, []⟩ [])
    (hcall : ∀ {tr s i n o k r w' p}, S.Run w₀ tr s → P.Obeyed tr s → I tr s (P.phases tr) →
      s.tasks[i]? = some ⟨n, .call o k⟩ → (P.phases tr)[i]? = some p → P.pre p o →
      S.sem s.world o r w' → G s (.call i o r) →
      P.rely p o r ∧ I ((s, .call i o r) :: tr) ⟨w', s.tasks.set i ⟨n, k r⟩⟩
        ((P.phases tr).set i (P.next p o r)))
    (hspawn : ∀ {tr s n}, S.Run w₀ tr s → P.Obeyed tr s → I tr s (P.phases tr) →
      S.allow (s.tasks.map (·.name)) n → G s (.spawn n) →
      I ((s, .spawn n) :: tr) ⟨s.world, s.tasks ++ [⟨n, S.boot n⟩]⟩ (P.phases tr ++ [P.start n]))
    (hdrift : ∀ {tr s w'}, S.Run w₀ tr s → P.Obeyed tr s → I tr s (P.phases tr) →
      S.drift s.world w' → G s .drift → I ((s, .drift) :: tr) ⟨w', s.tasks⟩ (P.phases tr))
    {tr : Trace Op Ans ε W N} {s : State Op Ans ε W N} (h : S.Run w₀ tr s)
    (hG : ∀ e ∈ tr, G e.1 e.2) : P.Obeyed tr s ∧ I tr s (P.phases tr) := by
  induction h with
  | start => exact ⟨⟨rfl, fun i t p ht _ => by simp at ht⟩, hstart⟩
  | step h hs ih =>
    obtain ⟨hob, hinv⟩ := ih fun e he => hG e (List.mem_cons_of_mem _ he)
    have hg := hG _ List.mem_cons_self
    cases hs with
    | @call i n o k r w' ht hsem =>
      obtain ⟨p, hp⟩ := hob.phase ht
      have hpre : P.pre p o := (hob.obeys i _ p ht hp).1
      obtain ⟨hrely, hinv'⟩ := hcall h hob hinv ht hp hpre hsem hg
      rw [phases_call hp]
      exact ⟨hob.call ht hp hrely, hinv'⟩
    | spawn ha => exact ⟨hob.spawn _, hspawn h hob hinv ha hg⟩
    | drift hd => exact ⟨hob.drift _, hdrift h hob hinv hd hg⟩

/-- **Every task obeys**, in every state of every run, when the protocol relies on nothing. -/
theorem obeyed_of_run (P : S.Protocol σ) (hrely : ∀ p o r, P.rely p o r) {w₀ : W}
    {tr : Trace Op Ans ε W N} {s : State Op Ans ε W N} (h : S.Run w₀ tr s) : P.Obeyed tr s :=
  (run_invariant P (G := fun _ _ => True) (I := fun _ _ _ => True) trivial
    (fun _ _ _ _ _ _ _ _ => ⟨hrely _ _ _, trivial⟩) (fun _ _ _ _ _ => trivial)
    (fun _ _ _ _ _ => trivial) h fun _ _ => trivial).1

/-- The call a task makes is one its situation permits. -/
theorem Obeyed.permitted (h : P.Obeyed tr s) {i : Nat} {n : N} {o : Op}
    {k : Except ε (Ans o) → Proc Op Ans ε Unit} (ht : s.tasks[i]? = some ⟨n, .call o k⟩) :
    ∃ p, (P.phases tr)[i]? = some p ∧ P.pre p o := by
  obtain ⟨p, hp⟩ := h.phase ht
  exact ⟨p, hp, (h.obeys i _ p ht hp).1⟩

/-- A task whose situation permits no call has ended. -/
theorem Obeyed.ended (h : P.Obeyed tr s) {i : Nat} {t : Task Op Ans ε N} {p : σ}
    (ht : s.tasks[i]? = some t) (hp : (P.phases tr)[i]? = some p) (hstop : ∀ o, ¬ P.pre p o) :
    t.rest.Ended := by
  have hobeys := h.obeys i t p ht hp
  cases hrest : t.rest with
  | ret a => exact trivial
  | raise e => exact trivial
  | call o k =>
    rw [hrest] at hobeys
    exact absurd hobeys.1 (hstop o)

end Sys.Protocol

/-! ## Facts about runs -/

/-- A step of the kind took place. -/
def Did (P : Label Op Ans ε N → Prop) (tr : Trace Op Ans ε W N) : Prop := ∃ e ∈ tr, P e.2

theorem did_cons {P : Label Op Ans ε N → Prop} {s : State Op Ans ε W N} {l : Label Op Ans ε N}
    {tr : Trace Op Ans ε W N} : Did P ((s, l) :: tr) ↔ P l ∨ Did P tr := by
  simp only [Did, List.mem_cons, exists_eq_or_imp]

theorem not_did_nil {P : Label Op Ans ε N → Prop} : ¬ Did P ([] : Trace Op Ans ε W N) :=
  fun ⟨_, he, _⟩ => List.not_mem_nil he

/-- Every step of the trace is in `C`, which also sees the trace before the step. -/
inductive Always (C : Trace Op Ans ε W N → State Op Ans ε W N → Label Op Ans ε N → Prop) :
    Trace Op Ans ε W N → Prop where
  | nil : Always C []
  | cons {tr : Trace Op Ans ε W N} {s : State Op Ans ε W N} {l : Label Op Ans ε N}
      (hC : C tr s l) (h : Always C tr) : Always C ((s, l) :: tr)

theorem always_cons {C : Trace Op Ans ε W N → State Op Ans ε W N → Label Op Ans ε N → Prop}
    {tr : Trace Op Ans ε W N} {s : State Op Ans ε W N} {l : Label Op Ans ε N} :
    Always C ((s, l) :: tr) ↔ C tr s l ∧ Always C tr :=
  ⟨fun h => by cases h with | cons hC h => exact ⟨hC, h⟩, fun h => .cons h.1 h.2⟩

theorem Always.mem {C : Trace Op Ans ε W N → State Op Ans ε W N → Label Op Ans ε N → Prop}
    {tr : Trace Op Ans ε W N} (h : Always C tr) {s : State Op Ans ε W N} {l : Label Op Ans ε N}
    (hm : (s, l) ∈ tr) : ∃ tr', C tr' s l := by
  induction h with
  | nil => cases hm
  | @cons tr' s' l' hC h ih =>
    rcases List.mem_cons.mp hm with heq | hm
    · cases heq
      exact ⟨tr', hC⟩
    · exact ih hm

theorem Always.imp {C C' : Trace Op Ans ε W N → State Op Ans ε W N → Label Op Ans ε N → Prop}
    (hC : ∀ {tr s l}, Always C tr → C tr s l → C' tr s l) {tr : Trace Op Ans ε W N}
    (h : Always C tr) : Always C' tr := by
  induction h with
  | nil => exact .nil
  | cons hc h ih => exact .cons (hC h hc) ih

/-- The same, as a check that evaluates. -/
def everyStep (f : Trace Op Ans ε W N → State Op Ans ε W N → Label Op Ans ε N → Bool) :
    Trace Op Ans ε W N → Bool
  | [] => true
  | (s, l) :: tr => f tr s l && everyStep f tr

theorem always_of_everyStep
    {f : Trace Op Ans ε W N → State Op Ans ε W N → Label Op Ans ε N → Bool}
    {C : Trace Op Ans ε W N → State Op Ans ε W N → Label Op Ans ε N → Prop}
    (hC : ∀ tr s l, f tr s l = true → C tr s l) :
    ∀ {tr : Trace Op Ans ε W N}, everyStep f tr = true → Always C tr
  | [], _ => .nil
  | (s, l) :: tr, h =>
    have hand := (Bool.and_eq_true _ _).mp h
    .cons (hC tr s l hand.1) (always_of_everyStep hC hand.2)

/-- A move of a task leaves the names of the tasks alone. -/
theorem names_set {ts : List (Task Op Ans ε N)} {i : Nat} {n : N} {p q : Proc Op Ans ε Unit}
    (h : ts[i]? = some ⟨n, p⟩) : (ts.set i ⟨n, q⟩).map (·.name) = ts.map (·.name) := by
  induction ts generalizing i with
  | nil => rfl
  | cons t ts ih =>
    cases i with
    | zero => cases h; rfl
    | succ i => simp only [List.set_cons_succ, List.map_cons, ih (i := i) h]

/-- One place of a list after an update. -/
theorem getElem?_set_cases {α : Type} {xs : List α} {i k : Nat} {a b : α}
    (h : (xs.set i a)[k]? = some b) : (k = i ∧ b = a) ∨ (k ≠ i ∧ xs[k]? = some b) := by
  by_cases hik : k = i
  · subst hik
    rw [List.getElem?_set_self'] at h
    cases hx : xs[k]? with
    | none => rw [hx] at h; cases h
    | some x => rw [hx] at h; cases h; exact Or.inl ⟨rfl, rfl⟩
  · rw [List.getElem?_set_ne (Ne.symm hik)] at h
    exact Or.inr ⟨hik, h⟩

/-- One place of a list after an append. -/
theorem getElem?_append_cases {α : Type} {xs : List α} {k : Nat} {a b : α}
    (h : (xs ++ [a])[k]? = some b) : (k = xs.length ∧ b = a) ∨ xs[k]? = some b := by
  rcases Nat.lt_trichotomy k xs.length with hlt | heq | hgt
  · rw [List.getElem?_append_left hlt] at h
    exact Or.inr h
  · subst heq
    rw [List.getElem?_concat_length] at h
    exact Or.inl ⟨rfl, (Option.some.inj h).symm⟩
  · rw [List.getElem?_eq_none (by simp; omega)] at h
    simp at h

namespace Sys

variable {w₀ : W} {tr : Trace Op Ans ε W N} {s : State Op Ans ε W N}

/-- Every step of a run is a step of the system, out of a state the run had reached and into a
    state it then reached. -/
theorem Run.mem (h : S.Run w₀ tr s) {s₁ : State Op Ans ε W N} {l : Label Op Ans ε N}
    (hm : (s₁, l) ∈ tr) : ∃ tr₁ s₂, S.Run w₀ tr₁ s₁ ∧ S.Step s₁ l s₂ ∧
      (s₁, l) :: tr₁ <:+ tr := by
  induction h with
  | start => cases hm
  | @step tr s s' l' h hs ih =>
    rcases List.mem_cons.mp hm with heq | hm
    · cases heq
      exact ⟨tr, s', h, hs, List.suffix_refl _⟩
    · obtain ⟨tr₁, s₂, h₁, hs₁, hsuf⟩ := ih hm
      exact ⟨tr₁, s₂, h₁, hs₁, hsuf.trans (List.suffix_cons _ _)⟩

/-- **What every state of a run delivers for its next step.** `G` is checked step by step. -/
theorem Run.always {C G : Trace Op Ans ε W N → State Op Ans ε W N → Label Op Ans ε N → Prop}
    (hC : ∀ {tr s l s'}, S.Run w₀ tr s → S.Step s l s' → Always G tr → G tr s l → C tr s l)
    (h : S.Run w₀ tr s) (hG : Always G tr) : Always C tr := by
  induction h with
  | start => exact .nil
  | step h hs ih =>
    obtain ⟨hg, hG⟩ := always_cons.mp hG
    exact .cons (hC h hs hG hg) (ih hG)

/-- A run goes on along a path. -/
theorem Run.append {G : State Op Ans ε W N → Label Op Ans ε N → State Op Ans ε W N → Prop}
    {seg : Trace Op Ans ε W N} {s' : State Op Ans ε W N} (h : S.Run w₀ tr s)
    (hp : S.Path G s seg s') : S.Run w₀ (seg ++ tr) s' := by
  induction hp with
  | start => exact h
  | step _ hs _ ih => exact .step ih hs

/-- A run whose steps are all in `G` is a path. -/
theorem Run.path {G : State Op Ans ε W N → Label Op Ans ε N → State Op Ans ε W N → Prop}
    (h : S.Run w₀ tr s) (hG : ∀ e ∈ tr, ∀ s', S.Step e.1 e.2 s' → G e.1 e.2 s') :
    S.Path G ⟨w₀, []⟩ tr s := by
  induction h with
  | start => exact .start
  | step _ hs ih =>
    exact .step (ih fun e he => hG e (List.mem_cons_of_mem _ he)) hs
      (hG _ List.mem_cons_self _ hs)

/-- **The induction along a path**, with the protocol obeyed all the way. -/
theorem Run.path_invariant {P : S.Protocol σ} (hrely : ∀ p o r, P.rely p o r)
    {G : State Op Ans ε W N → Label Op Ans ε N → State Op Ans ε W N → Prop}
    {I : Trace Op Ans ε W N → State Op Ans ε W N → List σ → Prop} (h : S.Run w₀ tr s)
    (hstart : I [] s (P.phases tr))
    (hcall : ∀ {seg s i n o k r w' p}, P.Obeyed (seg ++ tr) s → I seg s (P.phases (seg ++ tr)) →
      s.tasks[i]? = some ⟨n, .call o k⟩ → (P.phases (seg ++ tr))[i]? = some p → P.pre p o →
      S.sem s.world o r w' → G s (.call i o r) ⟨w', s.tasks.set i ⟨n, k r⟩⟩ →
      I ((s, .call i o r) :: seg) ⟨w', s.tasks.set i ⟨n, k r⟩⟩
        ((P.phases (seg ++ tr)).set i (P.next p o r)))
    (hspawn : ∀ {seg s n}, S.Run w₀ (seg ++ tr) s → P.Obeyed (seg ++ tr) s →
      I seg s (P.phases (seg ++ tr)) → S.allow (s.tasks.map (·.name)) n →
      I ((s, .spawn n) :: seg) ⟨s.world, s.tasks ++ [⟨n, S.boot n⟩]⟩
        (P.phases (seg ++ tr) ++ [P.start n]))
    (hdrift : ∀ {seg s w'}, I seg s (P.phases (seg ++ tr)) → S.drift s.world w' →
      G s .drift ⟨w', s.tasks⟩ → I ((s, .drift) :: seg) ⟨w', s.tasks⟩ (P.phases (seg ++ tr)))
    {seg : Trace Op Ans ε W N} {s' : State Op Ans ε W N} (hp : S.Path G s seg s') :
    I seg s' (P.phases (seg ++ tr)) := by
  induction hp with
  | start => exact hstart
  | @step seg s' s'' l hp hs hG ih =>
    have hrun := h.append hp
    have hob := P.obeyed_of_run hrely hrun
    cases hs with
    | @call i n o k r w' ht hsem =>
      obtain ⟨p, hp⟩ := hob.phase ht
      have hpre : P.pre p o := (hob.obeys i _ p ht hp).1
      rw [List.cons_append, Sys.Protocol.phases_call hp]
      exact hcall hob ih ht hp hpre hsem hG
    | spawn ha => exact hspawn hrun hob ih ha
    | drift hd => exact hdrift ih hd hG

/-- **A task keeps to the calls of its body**, whatever it was answered. -/
theorem Run.onlyCalls {P : N → Op → Prop} (hP : ∀ n, (S.boot n).OnlyCalls (P n))
    (h : S.Run w₀ tr s) {i : Nat} {t : Task Op Ans ε N} (ht : s.tasks[i]? = some t) :
    t.rest.OnlyCalls (P t.name) := by
  induction h generalizing i t with
  | start => cases ht
  | step h hs ih =>
    cases hs with
    | @call m n o k r w' hm _ =>
      rcases getElem?_set_cases ht with ⟨_, rfl⟩ | ⟨_, ht⟩
      · exact (ih hm).2 r
      · exact ih ht
    | @spawn n _ =>
      rcases getElem?_append_cases ht with ⟨_, rfl⟩ | ht
      · exact hP n
      · exact ih ht
    | drift => exact ih ht

/-- Only tasks that have started make calls. -/
theorem Run.index_lt (h : S.Run w₀ tr s) {i : Nat} {P : Label Op Ans ε N → Prop}
    (hP : ∀ l, P l → ∃ o r, l = .call i o r) (hd : Did P tr) : i < s.tasks.length := by
  induction h with
  | start => exact absurd hd not_did_nil
  | step h hs ih =>
    rcases did_cons.mp hd with hl | hd
    · obtain ⟨o, r, rfl⟩ := hP _ hl
      cases hs with
      | call ht _ =>
        have hlt := (List.getElem?_eq_some_iff.mp ht).1
        simpa using hlt
    · have hlt := ih hd
      cases hs with
      | call => simpa using hlt
      | spawn => simp; omega
      | drift => exact hlt

end Sys

end Async
