/-
  File:      InvoiceOcr/Slots.lean
  Subject:   THE WORKER SLOTS OF ONE PROCESS (`_worker_task` and `_run` of src/worker/main.py). When
             a slot leaves its loop.

  * `Lifecycle` -- what a slot calls on a message: any coroutine that does not pop by itself; and how
    deep a JSON text the stack of its task holds;
  * `Slot`, `Pool`, `Pool.Run` -- a slot at the top of its loop, inside a pass, stopped, dead; the
    slots of a process and the shutdown event, in any order of steps and with any outcomes;
  * `Escapes` -- the answers to a BRPOP on which the pop raises;
  * `PoolInv`, `poolInv_step` -- STEP: a slot is dead exactly when a pop of it has raised;
  * **`slots_consuming_iff`** -- RUN: before shutdown all slots are consuming exactly when no BRPOP
    raised anything but a connection blip and none returned a text that nests too deep;
  * `slot_dies` -- the pop stands outside the `try`, and catches no `RecursionError`.
-/
import InvoiceOcr.Protocol
import InvoiceOcr.Replay

namespace InvoiceOcr

open PyJson Async

/-! ## 1. Slots -/

/-- A lifecycle, as a slot sees it, and the levels of JSON that the stack has left for its pop. -/
structure Lifecycle where
  depth : Nat
  run : Uuid → Json → Py Unit
  noPop : ∀ j v, (run j v).OnlyCalls fun o => o ≠ .brpop

/-- A worker slot. -/
inductive Slot where
  | top
  | body (rest : Py Unit)
  | stopped
  | dead (e : PyExc)

/-- The slot has not left its loop. -/
def Slot.Consuming : Slot → Prop
  | .top => True
  | .body _ => True
  | _ => False

/-- A pass that is over, or goes on with `rest`; what escapes a pass escapes the task. -/
def Slot.after : Py Unit → Slot
  | .ret _ => .top
  | .raise e => .dead e
  | .call o k => .body (.call o k)

/-- The slots of a process and its shutdown event. -/
structure Pool where
  shutdown : Bool
  slots : List Slot

/-- `tasks = [… for i in range(WORKER_CONCURRENCY)]`. -/
def Pool.boot (concurrency : Nat) : Pool := ⟨false, List.replicate concurrency .top⟩

inductive PoolLabel where
  | signal
  | loop (i : Nat)
  | call (i : Nat) (o : Op) (r : Except PyExc (Ans o))

/-- **One step of a process**: the shutdown signal; the test of a `while`; an answered call. -/
inductive Pool.Step (lc : Lifecycle) : Pool → PoolLabel → Pool → Prop where
  | signal {P : Pool} : Pool.Step lc P .signal { P with shutdown := true }
  | enter {P : Pool} {i : Nat} (h : P.slots[i]? = some .top) (hs : P.shutdown = false) :
      Pool.Step lc P (.loop i)
        { P with slots := P.slots.set i (.after (workerIteration lc.depth lc.run)) }
  | leave {P : Pool} {i : Nat} (h : P.slots[i]? = some .top) (hs : P.shutdown = true) :
      Pool.Step lc P (.loop i) { P with slots := P.slots.set i .stopped }
  | call {P : Pool} {i : Nat} {o : Op} {k : Except PyExc (Ans o) → Py Unit}
      (h : P.slots[i]? = some (.body (.call o k))) (r : Except PyExc (Ans o)) :
      Pool.Step lc P (.call i o r) { P with slots := P.slots.set i (.after (k r)) }

/-- The runs of a process, the latest step first. -/
inductive Pool.Run (lc : Lifecycle) (concurrency : Nat) : List PoolLabel → Pool → Prop where
  | start : Pool.Run lc concurrency [] (Pool.boot concurrency)
  | step {tr : List PoolLabel} {P P' : Pool} {l : PoolLabel} (h : Pool.Run lc concurrency tr P)
      (hs : Pool.Step lc P l P') : Pool.Run lc concurrency (l :: tr) P'

/-! ## 2. A pass -/

/-- The monitor of a pass after its pop: it does not pop again. -/
def handling : Monitor Op Ans PyExc Unit where
  pre _ o := o ≠ .brpop
  rely _ _ _ := True
  next _ _ _ := ()

/-- The rest of a pass after its pop: it always returns. -/
def Handles (p : Py Unit) : Prop := wp handling (fun r _ => r = .ok ()) p ()

/-- What follows a pop that answered. -/
def handleMessage (lc : Lifecycle) : Option Json → Py Unit
  | none => .ret ()
  | some msg =>
    Proc.tryCatch ((Proc.ofExcept (readMessage msg)).bind fun m => lc.run m.1 m.2) fun _ => .ret ()

theorem handles_message (lc : Lifecycle) : ∀ msg, Handles (handleMessage lc msg)
  | none => rfl
  | some msg => by
    have hquiet : ((Proc.ofExcept (readMessage msg)).bind fun m => lc.run m.1 m.2).OnlyCalls
        fun o => o ≠ .brpop :=
      onlyCalls_bind (onlyCalls_ofExcept _) fun m => lc.noPop m.1 m.2
    refine (wp_tryCatch _ _ _).mpr (wp_quiet (fun _ ho => ho) (fun _ _ _ => rfl) hquiet fun r => ?_)
    cases r <;> exact rfl

/-- The answers the pop raises on: an error that is no connection blip, and a text that nests too
    deep, on which `json.loads` raises a `RecursionError`. -/
def Escapes (depth : Nat) : (o : Op) → Except PyExc (Ans o) → Prop
  | .brpop, .error e => e.isRedisBlip = false
  | .brpop, .ok (some val) => tooDeep depth val ≠ none
  | _, _ => False

/-- **A pass begins with a pop.** What the pop raises ends the pass; the rest always returns. -/
theorem pass_pop (lc : Lifecycle) : ∃ k, workerIteration lc.depth lc.run = .call .brpop k ∧
    (∀ r, ¬ Escapes lc.depth .brpop r → Handles (k r)) ∧
    ∀ r, Escapes lc.depth .brpop r → ∃ e, k r = .raise e := by
  refine ⟨_, rfl, fun r hr => ?_, fun r hr => ?_⟩
  · cases r with
    | error e =>
      have hblip : e.isRedisBlip = true := Bool.not_eq_false _ ▸ hr
      show Handles (Proc.bind (if e.isRedisBlip then .ret none else _) _)
      rw [if_pos hblip]
      exact rfl
    | ok val =>
      cases val with
      | none => exact handles_message lc none
      | some val =>
        have hflat : tooDeep lc.depth val = none := not_not.mp hr
        show Handles (Proc.bind (loadsWithin lc.depth val) _)
        rw [loadsWithin_flat hflat]
        exact handles_message lc (loadsOrNone val)
  · cases r with
    | error e =>
      show ∃ e', Proc.bind (if e.isRedisBlip then .ret none else if e.isRedisError then _ else _) _ = _
      rw [if_neg (by rw [show e.isRedisBlip = false from hr]; exact Bool.false_ne_true)]
      by_cases herr : e.isRedisError = true
      · rw [if_pos herr]
        exact ⟨_, rfl⟩
      · rw [if_neg herr]
        exact ⟨_, rfl⟩
    | ok val =>
      cases val with
      | none => exact hr.elim
      | some val =>
        obtain ⟨container, hdeep⟩ := Option.ne_none_iff_exists'.mp hr
        show ∃ e, Proc.bind (loadsWithin lc.depth val) _ = _
        rw [loadsWithin_tooDeep hdeep]
        exact ⟨_, rfl⟩

/-! ## 3. Dead slots -/

/-- A pop of slot `i` has raised. -/
def PopRaised (lc : Lifecycle) (tr : List PoolLabel) (i : Nat) : Prop :=
  ∃ o r, .call i o r ∈ tr ∧ Escapes lc.depth o r

/-- **The invariant of a process.** -/
structure PoolInv (lc : Lifecycle) (concurrency : Nat) (tr : List PoolLabel) (P : Pool) :
    Prop where
  length : P.slots.length = concurrency
  raised : ∀ i, PopRaised lc tr i → ∃ e, P.slots[i]? = some (.dead e)
  dead : ∀ (i : Nat) e, P.slots[i]? = some (.dead e) → PopRaised lc tr i
  stopped : ∀ i : Nat, P.slots[i]? = some .stopped → P.shutdown = true
  body : ∀ (i : Nat) p, P.slots[i]? = some (.body p) → p = workerIteration lc.depth lc.run ∨ Handles p

section Steps

variable {lc : Lifecycle} {concurrency : Nat} {tr : List PoolLabel} {P P' : Pool} {l : PoolLabel}
  {i m : Nat} {o : Op} {r : Except PyExc (Ans o)} {k : Except PyExc (Ans o) → Py Unit}

theorem popRaised_call (h : PopRaised lc (.call i o r :: tr) m) :
    (m = i ∧ Escapes lc.depth o r) ∨ PopRaised lc tr m := by
  obtain ⟨o', r', hcall, hesc⟩ := h
  rcases List.mem_cons.mp hcall with heq | hcall
  · cases heq
    exact Or.inl ⟨rfl, hesc⟩
  · exact Or.inr ⟨o', r', hcall, hesc⟩

theorem popRaised_mono (h : PopRaised lc tr m) : PopRaised lc (l :: tr) m := by
  obtain ⟨o, r, hcall, hesc⟩ := h
  exact ⟨o, r, List.mem_cons_of_mem _ hcall, hesc⟩

/-- A step that is no call. -/
theorem popRaised_other (h : PopRaised lc (l :: tr) m) (hl : ∀ o r, l ≠ .call m o r) :
    PopRaised lc tr m := by
  obtain ⟨o, r, hcall, hesc⟩ := h
  rcases List.mem_cons.mp hcall with rfl | hcall
  · exact absurd rfl (hl o r)
  · exact ⟨o, r, hcall, hesc⟩

/-- The slot after an answered call: back in its loop, or dead of its own pop. -/
inductive Moved (depth : Nat) (o : Op) (r : Except PyExc (Ans o)) : Slot → Prop where
  | top (h : ¬ Escapes depth o r) : Moved depth o r .top
  | body {p : Py Unit} (hp : Handles p) (h : ¬ Escapes depth o r) : Moved depth o r (.body p)
  | dead {e : PyExc} (h : Escapes depth o r) : Moved depth o r (.dead e)

theorem moved_handles {p : Py Unit} (hp : Handles p) (h : ¬ Escapes lc.depth o r) :
    Moved lc.depth o r (.after p) := by
  cases p with
  | ret a => exact .top h
  | raise e => cases (show (Except.error e : Except PyExc Unit) = .ok () from hp)
  | call o' k => exact .body hp h

theorem moved_call (hp : Proc.call o k = workerIteration lc.depth lc.run ∨ Handles (.call o k)) :
    Moved lc.depth o r (.after (k r)) := by
  rcases hp with hp | hp
  · obtain ⟨k', hk, hhandles, hraise⟩ := pass_pop lc
    cases hp.trans hk
    by_cases hesc : Escapes lc.depth .brpop r
    · obtain ⟨e, he⟩ := hraise r hesc
      rw [he]
      exact .dead hesc
    · exact moved_handles (hhandles r hesc) hesc
  · refine moved_handles (hp.2 r trivial) fun hesc => ?_
    have ho : o ≠ .brpop := hp.1
    cases o <;> first | exact hesc | exact ho rfl

/-- One slot moves from `old` to `new`. -/
theorem poolInv_move (h : PoolInv lc concurrency tr P) {old new : Slot}
    (hold : P.slots[i]? = some old) (halive : ∀ e, old ≠ .dead e)
    (hraised : ∀ m, PopRaised lc (l :: tr) m → (m = i ∧ ∃ e, new = .dead e) ∨ PopRaised lc tr m)
    (hdead : ∀ e, new = .dead e → PopRaised lc (l :: tr) i)
    (hstopped : new = .stopped → P.shutdown = true)
    (hbody : ∀ p, new = .body p → p = workerIteration lc.depth lc.run ∨ Handles p) :
    PoolInv lc concurrency (l :: tr) { P with slots := P.slots.set i new } := by
  have hlt := (List.getElem?_eq_some_iff.mp hold).1
  constructor
  case length => exact (List.length_set ..).trans h.length
  case raised =>
    intro m hm
    rcases hraised m hm with ⟨rfl, e, rfl⟩ | hm
    · exact ⟨e, List.getElem?_set_self hlt⟩
    · obtain ⟨e, he⟩ := h.raised m hm
      have hne : i ≠ m := by
        intro heq
        subst heq
        cases hold.symm.trans he
        exact halive e rfl
      exact ⟨e, (List.getElem?_set_ne hne).trans he⟩
  case dead =>
    intro m e hm
    rcases getElem?_set_cases hm with ⟨rfl, he⟩ | ⟨_, hm⟩
    · exact hdead e he.symm
    · exact popRaised_mono (h.dead m e hm)
  case stopped =>
    intro m hm
    rcases getElem?_set_cases hm with ⟨_, he⟩ | ⟨_, hm⟩
    · exact hstopped he.symm
    · exact h.stopped m hm
  case body =>
    intro m p hm
    rcases getElem?_set_cases hm with ⟨_, he⟩ | ⟨_, hm⟩
    · exact hbody p he.symm
    · exact h.body m p hm

/-- STEP: the invariant is kept. -/
theorem poolInv_step (h : PoolInv lc concurrency tr P) (hs : Pool.Step lc P l P') :
    PoolInv lc concurrency (l :: tr) P' := by
  cases hs with
  | signal =>
    exact ⟨h.length, fun i hi => h.raised i (popRaised_other hi (by simp)),
      fun i e he => popRaised_mono (h.dead i e he), fun _ _ => rfl, h.body⟩
  | enter hi hrun =>
    refine poolInv_move h hi (by simp) (fun m hm => Or.inr (popRaised_other hm (by simp))) ?_ ?_ ?_
    · exact fun e he => by cases he
    · exact fun he => by cases he
    · exact fun p he => by cases he; exact Or.inl rfl
  | leave hi hrun =>
    refine poolInv_move h hi (by simp) (fun m hm => Or.inr (popRaised_other hm (by simp))) ?_ ?_ ?_
    · exact fun e he => by simp at he
    · exact fun _ => hrun
    · exact fun p he => by simp at he
  | @call i o k hi r =>
    have hmoved : Moved lc.depth o r (.after (k r)) := moved_call (h.body i _ hi)
    generalize Slot.after (k r) = new at hmoved ⊢
    refine poolInv_move h hi (by simp) (fun m hm => ?_) (fun e he => ?_) (fun he => ?_)
      fun p he => ?_
    · rcases popRaised_call hm with ⟨rfl, hesc⟩ | hm
      · refine Or.inl ⟨rfl, ?_⟩
        cases hmoved with
        | top h => exact absurd hesc h
        | body _ h => exact absurd hesc h
        | dead => exact ⟨_, rfl⟩
      · exact Or.inr hm
    · subst he
      cases hmoved with
      | dead hesc => exact ⟨_, _, List.mem_cons_self, hesc⟩
    · subst he
      cases hmoved
    · subst he
      cases hmoved with
      | body hp _ => exact Or.inr hp

theorem poolInv_run (h : Pool.Run lc concurrency tr P) : PoolInv lc concurrency tr P := by
  induction h with
  | start =>
    have htop : ∀ (i : Nat) slot, (Pool.boot concurrency).slots[i]? = some slot → slot = .top := by
      intro i slot hi
      exact List.eq_of_mem_replicate (List.mem_of_getElem? hi)
    refine ⟨List.length_replicate .., fun i ⟨_, _, hcall, _⟩ => (List.not_mem_nil hcall).elim, ?_, ?_, ?_⟩
    · exact fun i e hi => by cases htop i _ hi
    · exact fun i hi => by cases htop i _ hi
    · exact fun i p hi => by cases htop i _ hi
  | step _ hs ih => exact poolInv_step ih hs

/-- **Before shutdown all slots are consuming**, exactly when no BRPOP raised anything but a
    connection error or a timeout, and none returned a text that nests too deep for `json.loads`. -/
theorem slots_consuming_iff (h : Pool.Run lc concurrency tr P) (hs : P.shutdown = false) :
    (P.slots.length = concurrency ∧ ∀ slot ∈ P.slots, slot.Consuming) ↔
      (∀ i e, .call i .brpop (.error e) ∈ tr → e.isRedisBlip = true) ∧
        ∀ i val, .call i .brpop (.ok (some val)) ∈ tr → tooDeep lc.depth val = none := by
  have hinv := poolInv_run h
  constructor
  · intro ⟨_, hall⟩
    have hno : ∀ i o r, .call i o r ∈ tr → ¬ Escapes lc.depth o r := fun i o r hcall hesc =>
      have ⟨_, hdead⟩ := hinv.raised i ⟨o, r, hcall, hesc⟩
      hall _ (List.mem_of_getElem? hdead)
    exact ⟨fun i e he => Bool.not_eq_false _ ▸ hno i .brpop (.error e) he,
      fun i val hval => not_not.mp (hno i .brpop (.ok (some val)) hval)⟩
  · intro ⟨hblip, hflat⟩
    have hno : ∀ i o r, .call i o r ∈ tr → ¬ Escapes lc.depth o r := by
      intro i o r hcall hesc
      unfold Escapes at hesc
      split at hesc
      next e => exact absurd (hblip i e hcall) (by rw [hesc]; exact Bool.false_ne_true)
      next val => exact hesc (hflat i val hcall)
      next => exact hesc
    refine ⟨hinv.length, fun slot hslot => ?_⟩
    obtain ⟨i, hi⟩ := List.mem_iff_getElem?.mp hslot
    cases slot with
    | top => exact trivial
    | body p => exact trivial
    | stopped =>
      rw [hinv.stopped i hi] at hs
      simp at hs
    | dead e =>
      obtain ⟨o, r, hcall, hesc⟩ := hinv.dead i e hi
      exact hno i o r hcall hesc

end Steps

/-! ## 4. The lifecycle of the program, and a slot that dies -/

/-- A run does not pop. -/
theorem lifecycle_noPop (wk : Worker) (j : Uuid) (v : Json) :
    (executeTaskLifecycle wk j v).OnlyCalls fun o => o ≠ .brpop := by
  refine onlyCalls_of_wp (N := fun p => p ≠ .idle) (fun p o hp hpre ho => ?_)
    (fun p o r hp hpre => ?_) (fun _ _ _ => trivial) (@obeys_lifecycle wk j v) (by simp)
  · subst ho
    exact hp (Phase.pre_brpop hpre)
  · show Phase.next wk.cfg p o r ≠ .idle
    have hadv := advance hpre r
    generalize Phase.next wk.cfg p o r = q at hadv
    cases hadv with
    | run _ hq => rintro rfl; exact hq.elim
    | _ => simp

/-- What the slots of a worker process run. -/
def Worker.lifecycle (wk : Worker) : Lifecycle :=
  ⟨jsonDepth, executeTaskLifecycle wk, lifecycle_noPop wk⟩

/-- A slot in its loop pops. -/
theorem run_pop {lc : Lifecycle} {concurrency i : Nat} {tr : List PoolLabel} {P : Pool}
    (h : Pool.Run lc concurrency tr P) (hi : P.slots[i]? = some .top) (hs : P.shutdown = false)
    (r : Except PyExc (Ans .brpop)) :
    ∃ p : Py Unit, (Escapes lc.depth .brpop r → ∃ e, p = .raise e) ∧
      Pool.Run lc concurrency (.call i .brpop r :: .loop i :: tr)
        { P with slots := P.slots.set i (.after p) } := by
  obtain ⟨k, hk, _, hraise⟩ := pass_pop lc
  have henter := Pool.Run.step h (.enter hi hs)
  rw [hk] at henter
  have hlt := (List.getElem?_eq_some_iff.mp hi).1
  have hpop := Pool.Run.step henter (.call (List.getElem?_set_self hlt) r)
  refine ⟨k r, hraise r, ?_⟩
  rwa [List.set_set] at hpop

/-- Three slots: one pops a message, one waits for nothing, one loses its connection. -/
def Sample.pops : List PoolLabel :=
  [.call 2 .brpop (.error (.redisConnectionError [])), .loop 2, .call 1 .brpop (.ok none), .loop 1,
    .call 0 .brpop (.ok (some (message Sample.job (.str Sample.url)))), .loop 0]

theorem slots_consuming_popped : ∃ P : Pool,
    Pool.Run (Sample.deployment.worker 0).lifecycle 3 Sample.pops P ∧ P.shutdown = false ∧
      P.slots.length = 3 ∧ ∀ slot ∈ P.slots, slot.Consuming := by
  generalize hlc : (Sample.deployment.worker 0).lifecycle = lc
  have hdepth : lc.depth = jsonDepth := hlc ▸ rfl
  obtain ⟨_, _, hpopped⟩ := run_pop (.start : Pool.Run lc 3 [] (Pool.boot 3)) (i := 0) rfl rfl
    (.ok (some (message Sample.job (.str Sample.url))))
  obtain ⟨_, _, hwaited⟩ := run_pop hpopped (i := 1) rfl rfl (.ok none)
  obtain ⟨_, _, hlost⟩ := run_pop hwaited (i := 2) rfl rfl (.error (.redisConnectionError []))
  refine ⟨_, hlost, rfl, (slots_consuming_iff hlost rfl).mpr ⟨fun i e he => ?_, fun i val hval => ?_⟩⟩
  · simp only [List.mem_cons, List.not_mem_nil, or_false, reduceCtorEq, PoolLabel.call.injEq,
      heq_eq_eq, true_and, and_false, Except.error.injEq] at he
    rw [he.2]
    rfl
  · simp only [List.mem_cons, List.not_mem_nil, or_false, reduceCtorEq, false_or,
      PoolLabel.call.injEq, heq_eq_eq, true_and, and_false, Except.ok.injEq, Option.some.injEq] at hval
    have hplain : Plain (.str Sample.url) := trivial
    rw [hval.2, hdepth]
    exact tooDeep_message Sample.job hplain (Nat.zero_lt_succ 980)

/-- A slot whose pop raises leaves its loop. -/
theorem slot_dies_of {lc : Lifecycle} {r : Except PyExc (Ans .brpop)}
    (hr : Escapes lc.depth .brpop r) :
    ∃ P, Pool.Run lc 1 [.call 0 .brpop r, .loop 0] P ∧ P.shutdown = false ∧
      ¬ (P.slots.length = 1 ∧ ∀ slot ∈ P.slots, slot.Consuming) := by
  obtain ⟨p, hraise, hdie⟩ := run_pop (.start : Pool.Run lc 1 [] (Pool.boot 1)) (i := 0) rfl rfl r
  obtain ⟨e, rfl⟩ := hraise hr
  exact ⟨_, hdie, rfl, fun h => (h.2 (.dead e) List.mem_cons_self : (Slot.dead e).Consuming)⟩

/-- **A slot dies**: BRPOP answers an error of the server, or a text of 982 opening brackets, and the
    one slot leaves its loop. -/
theorem slot_dies :
    (∃ P, Pool.Run (Sample.deployment.worker 0).lifecycle 1
        [.call 0 .brpop (.error (.redisError [])), .loop 0] P ∧
      P.shutdown = false ∧ ¬ (P.slots.length = 1 ∧ ∀ slot ∈ P.slots, slot.Consuming)) ∧
    ∃ P, Pool.Run (Sample.deployment.worker 0).lifecycle 1
        [.call 0 .brpop (.ok (some (List.replicate 982 '['))), .loop 0] P ∧
      P.shutdown = false ∧ ¬ (P.slots.length = 1 ∧ ∀ slot ∈ P.slots, slot.Consuming) := by
  have hdeep := tooDeep_brackets jsonDepth []
  rw [List.append_nil] at hdeep
  generalize hlc : (Sample.deployment.worker 0).lifecycle = lc
  have hdepth : lc.depth = jsonDepth := hlc ▸ rfl
  refine ⟨slot_dies_of rfl, slot_dies_of fun h => ?_⟩
  rw [hdepth] at h
  exact Option.some_ne_none _ (hdeep.symm.trans h)

end InvoiceOcr
