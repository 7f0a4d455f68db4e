/-
  File:      InvoiceOcr/Shutdown.lean
  Subject:   A WORKER PROCESS FROM BOOT TO EXIT (`_run` and `_worker_task` of src/worker/main.py, the
             loops of src/worker/sweeper.py, rate_refresh.py and nightly_purge.py).

  * `Main` -- where `_run` stands; `Daemon`, `Daemon.Step` -- the loops of the three daemons;
  * `Instance.Step`, `Instance.Run` -- the process: main, slots and daemons, in any order of steps and
    with any outcomes;
  * `Orderly`, `orderly_step` -- STEP: what each stage of `_run` may count on;
  * **`calls_find_clients`** -- RUN: no slot and no daemon ever calls before the clients are there or
    after they are closed;
  * `SlotStory`, `story_step` -- STEP: the calls of a slot are whole passes and a part of one;
  * **`exits_drained`** -- RUN: a process that exits has cut no job short;
  * **`shutdown_completes`** -- after the signal every way to go on is finite, and ends where `_run` does.
-/
import InvoiceOcr.Async.Hosts
import InvoiceOcr.Slots

namespace InvoiceOcr

open PyJson Async

/-! ## 1. Daemons -/

inductive DaemonName where
  | sweeper
  | rateRefresh
  | nightlyPurge

/-- A daemon. `sleep` is `asyncio.wait_for(shutdown.wait(), timeout=…)`; `idle` is `shutdown.wait()` on a
    process that does not lead the purge. -/
inductive Daemon where
  | loop
  | body (rest : Py Unit)
  | refresh
  | sleep
  | idle
  | stopped
  | cancelled
  | dead (e : PyExc)

/-- The task is done. -/
def Daemon.Over : Daemon → Prop
  | .stopped => True
  | .cancelled => True
  | .dead _ => True
  | _ => False

/-- How a daemon begins; `leads` is `WORKER_ID == PURGE_WORKER_ID`. -/
def Daemon.boot (leads : Bool) : DaemonName → Daemon
  | .nightlyPurge => if leads then .loop else .idle
  | _ => .loop

/-- A pass that is over, or goes on. The purge sleeps before its pass, the sweeper after. -/
def Daemon.after (name : DaemonName) : Py Unit → Daemon
  | .ret _ =>
    match name with
    | .nightlyPurge => .loop
    | _ => .sleep
  | .raise e => .dead e
  | .call o k => .body (.call o k)

inductive DaemonLabel where
  | quiet
  | call (o : Op) (r : Except PyExc (Ans o))
  | hgetall

/-- **One step of a daemon**; `shutdown` is what the event says at the step. -/
inductive Daemon.Step (cfg : Settings) (shutdown : Bool) :
    DaemonName → Daemon → DaemonLabel → Daemon → Prop where
  | stop {name : DaemonName} (hs : shutdown = true) : Daemon.Step cfg shutdown name .loop .quiet .stopped
  | sweep (hs : shutdown = false) : Daemon.Step cfg shutdown .sweeper .loop .quiet
      (.after .sweeper (sweeperIteration cfg))
  | refresh (hs : shutdown = false) : Daemon.Step cfg shutdown .rateRefresh .loop .quiet .refresh
  | purgeSleep (hs : shutdown = false) : Daemon.Step cfg shutdown .nightlyPurge .loop .quiet .sleep
  | call {name : DaemonName} {o : Op} {k : Except PyExc (Ans o) → Py Unit}
      (r : Except PyExc (Ans o)) :
      Daemon.Step cfg shutdown name (.body (.call o k)) (.call o r) (.after name (k r))
  -- the configuration is read or not, and the `except` of the pass keeps the loop alive
  | refreshed : Daemon.Step cfg shutdown .rateRefresh .refresh .hgetall .sleep
  | wake {name : DaemonName} (hn : name ≠ .nightlyPurge) :
      Daemon.Step cfg shutdown name .sleep .quiet .loop
  | purge : Daemon.Step cfg shutdown .nightlyPurge .sleep .quiet
      (.after .nightlyPurge (purgeIteration cfg))
  | purgeStop (hs : shutdown = true) : Daemon.Step cfg shutdown .nightlyPurge .sleep .quiet .stopped
  | release {name : DaemonName} (hs : shutdown = true) :
      Daemon.Step cfg shutdown name .idle .quiet .stopped

/-! ## 2. The process -/

/-- Where `_run` stands. -/
inductive Main where
  /-- `await pg.init_pool()`. -/
  | booting
  /-- `await redis.init()`. -/
  | connecting
  /-- The metrics server, the bucket and the whitelists. -/
  | starting
  /-- `await _shutdown.wait()`. -/
  | serving
  /-- `await asyncio.gather(*tasks, …)`. -/
  | draining
  /-- The daemons are told to cancel: `await asyncio.gather(*daemon_tasks, …)`. -/
  | reaping
  /-- `await pg.close_pool()`. -/
  | closingPool
  /-- `await redis.close()`. -/
  | closingClient
  /-- `return 0`. -/
  | exited
  | raised (e : PyExc)

/-- A worker process. `pool` and `client` say whether `_pool` and `_client` are there. -/
structure Instance where
  main : Main
  shutdown : Bool
  pool : Bool
  client : Bool
  slots : List Slot
  daemons : List (DaemonName × Daemon)

/-- What a process runs with. -/
structure Plan where
  cfg : Settings
  lifecycle : Lifecycle
  /-- `settings.WORKER_ID == settings.PURGE_WORKER_ID` -/
  leads : Bool

def Instance.boot : Instance := ⟨.booting, false, false, false, [], []⟩

/-- `tasks`. -/
def Plan.slots (p : Plan) : List Slot := List.replicate p.cfg.workerConcurrency .top

/-- `daemon_tasks`. -/
def Plan.daemons (p : Plan) : List (DaemonName × Daemon) :=
  [.sweeper, .rateRefresh, .nightlyPurge].map fun name => (name, .boot p.leads name)

inductive InstanceLabel where
  | main
  | signal
  | loop (i : Nat)
  | call (i : Nat) (o : Op) (r : Except PyExc (Ans o))
  | daemon (d : Nat) (l : DaemonLabel)
  | cancel (d : Nat)

/-- **One step of a process.** -/
inductive Instance.Step (p : Plan) : Instance → InstanceLabel → Instance → Prop where
  -- `_run`, up to the tasks
  | initPool {P : Instance} (h : P.main = .booting) :
      Instance.Step p P .main { P with main := .connecting, pool := true }
  | init {P : Instance} (h : P.main = .connecting) :
      Instance.Step p P .main { P with main := .starting, client := true }
  | start {P : Instance} (h : P.main = .starting) :
      Instance.Step p P .main { P with main := .serving, slots := p.slots, daemons := p.daemons }
  | bootFails {P : Instance} (e : PyExc)
      (h : P.main = .booting ∨ P.main = .connecting ∨ P.main = .starting) :
      Instance.Step p P .main { P with main := .raised e }
  -- the handlers are installed before the tasks are there
  | signal {P : Instance} (h : P.main = .serving) (hs : P.shutdown = false) :
      Instance.Step p P .signal { P with shutdown := true }
  | enter {P : Instance} {i : Nat} (h : P.slots[i]? = some .top) (hs : P.shutdown = false) :
      Instance.Step p P (.loop i)
        { P with slots := P.slots.set i (.after (workerIteration p.lifecycle.depth p.lifecycle.run)) }
  | leave {P : Instance} {i : Nat} (h : P.slots[i]? = some .top) (hs : P.shutdown = true) :
      Instance.Step p P (.loop i) { P with slots := P.slots.set i .stopped }
  | call {P : Instance} {i : Nat} {o : Op} {k : Except PyExc (Ans o) → Py Unit}
      (h : P.slots[i]? = some (.body (.call o k))) (r : Except PyExc (Ans o)) :
      Instance.Step p P (.call i o r) { P with slots := P.slots.set i (.after (k r)) }
  | daemon {P : Instance} {d : Nat} {name : DaemonName} {a b : Daemon} {l : DaemonLabel}
      (h : P.daemons[d]? = some (name, a)) (hd : Daemon.Step p.cfg P.shutdown name a l b) :
      Instance.Step p P (.daemon d l) { P with daemons := P.daemons.set d (name, b) }
  -- `_run`, from the event on
  | drain {P : Instance} (h : P.main = .serving) (hs : P.shutdown = true) :
      Instance.Step p P .main { P with main := .draining }
  | drained {P : Instance} (h : P.main = .draining) (hgone : ∀ slot ∈ P.slots, ¬ slot.Consuming) :
      Instance.Step p P .main { P with main := .reaping }
  -- a cancelled daemon ends at its next await, or at one of the next where `wait_for` swallows it
  | cancel {P : Instance} {d : Nat} {name : DaemonName} {a : Daemon} (h : P.main = .reaping)
      (ha : P.daemons[d]? = some (name, a)) (hover : ¬ a.Over) :
      Instance.Step p P (.cancel d) { P with daemons := P.daemons.set d (name, .cancelled) }
  | reaped {P : Instance} (h : P.main = .reaping) (hover : ∀ d ∈ P.daemons, d.2.Over) :
      Instance.Step p P .main { P with main := .closingPool }
  | closePool {P : Instance} (h : P.main = .closingPool) :
      Instance.Step p P .main { P with main := .closingClient, pool := false }
  | close {P : Instance} (h : P.main = .closingClient) :
      Instance.Step p P .main { P with main := .exited, client := false }
  | closeFails {P : Instance} (e : PyExc) (h : P.main = .closingPool ∨ P.main = .closingClient) :
      Instance.Step p P .main { P with main := .raised e }

/-- The runs of a process with the states before their steps, the latest first. -/
inductive Instance.Run (p : Plan) : List (Instance × InstanceLabel) → Instance → Prop where
  | start : Instance.Run p [] Instance.boot
  | step {tr : List (Instance × InstanceLabel)} {P P' : Instance} {l : InstanceLabel}
      (h : Instance.Run p tr P) (hs : Instance.Step p P l P') : Instance.Run p ((P, l) :: tr) P'

/-! ## 3. A process that boots, is told to stop, and exits -/

namespace Sample

/-- One slot, in a process that does not lead the purge. -/
def plan : Plan := ⟨{ deployment.cfg with workerConcurrency := 1 }, (deployment.worker 0).lifecycle, false⟩

/-- The signal comes while the slot waits for a message. -/
def signalled : Instance where
  main := .serving
  shutdown := true
  pool := true
  client := true
  slots := [.after (workerIteration plan.lifecycle.depth plan.lifecycle.run)]
  daemons := plan.daemons

def exited : Instance where
  main := .exited
  shutdown := true
  pool := false
  client := false
  slots := [.stopped]
  daemons := [(.sweeper, .cancelled), (.rateRefresh, .cancelled), (.nightlyPurge, .stopped)]

end Sample

theorem run_signalled : ∃ tr, Instance.Run Sample.plan tr Sample.signalled := by
  have h := Instance.Run.start (p := Sample.plan)
  have h := h.step (.initPool rfl)
  have h := h.step (.init rfl)
  have h := h.step (.start rfl)
  have h := h.step (.enter (i := 0) rfl rfl)
  exact ⟨_, h.step (.signal rfl rfl)⟩

/-- The slot is answered that there is no message. -/
theorem run_exited : ∃ tr, Instance.Run Sample.plan tr Sample.exited := by
  obtain ⟨_, h⟩ := run_signalled
  have h := h.step (.drain rfl rfl)
  have h := h.step (.call (i := 0) (o := .brpop) rfl (.ok none))
  have h := h.step (.leave (i := 0) rfl rfl)
  have h := h.step (.drained rfl (by
    intro slot hslot
    rw [List.mem_singleton.mp hslot]
    exact id))
  have h := h.step (.cancel (d := 0) rfl rfl id)
  have h := h.step (.daemon (d := 2) rfl (.release rfl))
  have h := h.step (.cancel (d := 1) rfl rfl id)
  have h := h.step (.reaped rfl (by
    intro x hx
    rcases List.mem_cons.mp hx with rfl | hx
    · trivial
    · rcases List.mem_cons.mp hx with rfl | hx
      · trivial
      · rw [List.mem_singleton.mp hx]
        trivial))
  have h := h.step (.closePool rfl)
  exact ⟨_, h.step (.close rfl)⟩

/-! ## 4. The stages of `_run` -/

/-- No slot is in its loop, no daemon in its own. -/
def Instance.Gone (P : Instance) : Prop :=
  (∀ slot ∈ P.slots, ¬ slot.Consuming) ∧ ∀ d ∈ P.daemons, d.2.Over

/-- **What `_run` may count on, stage by stage.** -/
def Instance.Counts (P : Instance) : Prop :=
  match P.main with
  | .booting => P.slots = [] ∧ P.daemons = []
  | .connecting => P.slots = [] ∧ P.daemons = [] ∧ P.pool = true
  | .starting => P.slots = [] ∧ P.daemons = [] ∧ P.pool = true ∧ P.client = true
  | .serving => P.pool = true ∧ P.client = true
  | .draining => P.pool = true ∧ P.client = true ∧ P.shutdown = true
  | .reaping =>
    P.pool = true ∧ P.client = true ∧ P.shutdown = true ∧ ∀ slot ∈ P.slots, ¬ slot.Consuming
  | .closingPool => P.pool = true ∧ P.client = true ∧ P.shutdown = true ∧ P.Gone
  | .closingClient => P.pool = false ∧ P.client = true ∧ P.shutdown = true ∧ P.Gone
  | .exited => P.pool = false ∧ P.client = false ∧ P.shutdown = true ∧ P.Gone
  | .raised _ => P.Gone

/-- **The invariant of a process.** -/
structure Orderly (P : Instance) : Prop where
  counts : P.Counts
  awaiting : ∀ rest, Slot.body rest ∈ P.slots → ∃ o k, rest = .call o k

section Steps

variable {p : Plan} {P P' : Instance} {l : InstanceLabel} {tr : List (Instance × InstanceLabel)}
  {i d : Nat}

theorem gone_unborn (h : P.slots = [] ∧ P.daemons = []) : P.Gone := by
  obtain ⟨hslots, hdaemons⟩ := h
  rw [Instance.Gone, hslots, hdaemons]
  exact ⟨fun _ h => absurd h List.not_mem_nil, fun _ h => absurd h List.not_mem_nil⟩

/-- While a slot is in its loop `_run` waits for it, or for the event. -/
theorem Orderly.slot (h : Orderly P) {old : Slot} (hi : P.slots[i]? = some old)
    (hold : old.Consuming) :
    (P.main = .serving ∨ P.main = .draining ∧ P.shutdown = true) ∧ P.pool = true ∧ P.client = true := by
  have hmem := List.mem_of_getElem? hi
  have hcounts := h.counts
  unfold Instance.Counts at hcounts
  have hne : P.slots ≠ [] := List.ne_nil_of_mem hmem
  split at hcounts
  case h_1 => exact absurd hcounts.1 hne
  case h_2 => exact absurd hcounts.1 hne
  case h_3 => exact absurd hcounts.1 hne
  case h_4 hm => exact ⟨Or.inl hm, hcounts⟩
  case h_5 hm => exact ⟨Or.inr ⟨hm, hcounts.2.2⟩, hcounts.1, hcounts.2.1⟩
  case h_6 => exact absurd hold (hcounts.2.2.2 _ hmem)
  case h_7 => exact absurd hold (hcounts.2.2.2.1 _ hmem)
  case h_8 => exact absurd hold (hcounts.2.2.2.1 _ hmem)
  case h_9 => exact absurd hold (hcounts.2.2.2.1 _ hmem)
  case h_10 => exact absurd hold (hcounts.1 _ hmem)

/-- While a daemon is not over `_run` has not begun to close. -/
theorem Orderly.daemon (h : Orderly P) {x : DaemonName × Daemon} (hd : P.daemons[d]? = some x)
    (hx : ¬ x.2.Over) :
    (P.main = .serving ∨ P.main = .draining ∨ P.main = .reaping) ∧ P.pool = true ∧
      P.client = true := by
  have hmem := List.mem_of_getElem? hd
  have hcounts := h.counts
  unfold Instance.Counts at hcounts
  have hne : P.daemons ≠ [] := List.ne_nil_of_mem hmem
  split at hcounts
  case h_1 => exact absurd hcounts.2 hne
  case h_2 => exact absurd hcounts.2.1 hne
  case h_3 => exact absurd hcounts.2.1 hne
  case h_4 hm => exact ⟨Or.inl hm, hcounts⟩
  case h_5 hm => exact ⟨Or.inr (Or.inl hm), hcounts.1, hcounts.2.1⟩
  case h_6 hm => exact ⟨Or.inr (Or.inr hm), hcounts.1, hcounts.2.1⟩
  case h_7 => exact absurd (hcounts.2.2.2.2 _ hmem) hx
  case h_8 => exact absurd (hcounts.2.2.2.2 _ hmem) hx
  case h_9 => exact absurd (hcounts.2.2.2.2 _ hmem) hx
  case h_10 => exact absurd (hcounts.2 _ hmem) hx

/-- A slot within a pass awaits a call. -/
theorem after_body {q rest : Py Unit} (h : Slot.after q = .body rest) : ∃ o k, rest = .call o k := by
  cases q with
  | ret a => cases h
  | raise e => cases h
  | call o k => cases h; exact ⟨o, k, rfl⟩

/-- One slot moves. -/
theorem orderly_slot (h : Orderly P) {old new : Slot} (hi : P.slots[i]? = some old)
    (hold : old.Consuming) (hnew : ∀ rest, new = .body rest → ∃ o k, rest = .call o k) :
    Orderly { P with slots := P.slots.set i new } := by
  obtain ⟨hmain, hpool, hclient⟩ := h.slot hi hold
  refine ⟨?_, fun rest hmem => ?_⟩
  · unfold Instance.Counts
    rcases hmain with hm | ⟨hm, hs⟩
    · simp only [hm]
      exact ⟨hpool, hclient⟩
    · simp only [hm]
      exact ⟨hpool, hclient, hs⟩
  · rcases List.mem_or_eq_of_mem_set hmem with hmem | he
    · exact h.awaiting rest hmem
    · exact hnew rest he.symm

/-- One daemon moves. -/
theorem orderly_daemon (h : Orderly P) {x y : DaemonName × Daemon} (hd : P.daemons[d]? = some x)
    (hx : ¬ x.2.Over) : Orderly { P with daemons := P.daemons.set d y } := by
  obtain ⟨hmain, hpool, hclient⟩ := h.daemon hd hx
  refine ⟨?_, h.awaiting⟩
  have hcounts := h.counts
  unfold Instance.Counts at hcounts ⊢
  rcases hmain with hm | hm | hm
  all_goals
    simp only [hm] at hcounts ⊢
    exact hcounts

theorem not_over_of_step {cfg : Settings} {name : DaemonName} {a b : Daemon} {l : DaemonLabel}
    {shutdown : Bool} (h : Daemon.Step cfg shutdown name a l b) : ¬ a.Over := by
  cases h <;> exact not_false

/-- STEP: the invariant is kept. -/
theorem orderly_step (h : Orderly P) (hs : Instance.Step p P l P') : Orderly P' := by
  have hcounts := h.counts
  unfold Instance.Counts at hcounts
  cases hs with
  | initPool hm =>
    rw [hm] at hcounts
    exact ⟨⟨hcounts.1, hcounts.2, rfl⟩, h.awaiting⟩
  | init hm =>
    rw [hm] at hcounts
    exact ⟨⟨hcounts.1, hcounts.2.1, hcounts.2.2, rfl⟩, h.awaiting⟩
  | start hm =>
    rw [hm] at hcounts
    refine ⟨⟨hcounts.2.2.1, hcounts.2.2.2⟩, fun rest hmem => ?_⟩
    cases List.eq_of_mem_replicate hmem
  | bootFails e hm =>
    refine ⟨gone_unborn ?_, h.awaiting⟩
    rcases hm with hm | hm | hm <;> rw [hm] at hcounts
    · exact hcounts
    · exact ⟨hcounts.1, hcounts.2.1⟩
    · exact ⟨hcounts.1, hcounts.2.1⟩
  | signal hm _ =>
    rw [hm] at hcounts
    refine ⟨?_, h.awaiting⟩
    unfold Instance.Counts
    simp only [hm]
    exact hcounts
  | enter hi _ => exact orderly_slot h hi trivial fun rest he => after_body he
  | leave hi _ => exact orderly_slot h hi trivial fun rest he => by cases he
  | call hi r => exact orderly_slot h hi trivial fun rest he => after_body he
  | daemon hd hstep => exact orderly_daemon h hd (not_over_of_step hstep)
  | drain hm hs =>
    rw [hm] at hcounts
    exact ⟨⟨hcounts.1, hcounts.2, hs⟩, h.awaiting⟩
  | drained hm hgone =>
    rw [hm] at hcounts
    exact ⟨⟨hcounts.1, hcounts.2.1, hcounts.2.2, hgone⟩, h.awaiting⟩
  | cancel _ ha hover => exact orderly_daemon h ha hover
  | reaped hm hover =>
    rw [hm] at hcounts
    exact ⟨⟨hcounts.1, hcounts.2.1, hcounts.2.2.1, hcounts.2.2.2, hover⟩, h.awaiting⟩
  | closePool hm =>
    rw [hm] at hcounts
    exact ⟨⟨rfl, hcounts.2⟩, h.awaiting⟩
  | close hm =>
    rw [hm] at hcounts
    exact ⟨⟨hcounts.1, rfl, hcounts.2.2⟩, h.awaiting⟩
  | closeFails e hm =>
    refine ⟨?_, h.awaiting⟩
    rcases hm with hm | hm <;> rw [hm] at hcounts <;> exact hcounts.2.2.2

theorem orderly_run (h : Instance.Run p tr P) : Orderly P := by
  induction h with
  | start => exact ⟨⟨rfl, rfl⟩, fun _ h => absurd h List.not_mem_nil⟩
  | step _ hs ih => exact orderly_step ih hs

/-! ## 5. Calls and clients -/

/-- A slot or a daemon is at a call of Postgres, Redis or a service. -/
def InstanceLabel.Calls : InstanceLabel → Prop
  | .call _ _ _ => True
  | .daemon _ (.call _ _) => True
  | .daemon _ .hgetall => True
  | _ => False

/-- **Calls find the clients.** In whatever order a process boots, works, is told to stop and closes,
    no slot and no daemon calls where a client is not there yet or no more: the `assert`s on `_pool` and
    `_client` hold at every call. -/
theorem calls_find_clients (h : Instance.Run p tr P) :
    ∀ e ∈ tr, e.2.Calls → e.1.pool = true ∧ e.1.client = true := by
  induction h with
  | start => exact fun _ he => absurd he List.not_mem_nil
  | step hrun hs ih =>
    intro e he hcalls
    rcases List.mem_cons.mp he with rfl | he
    · have hord := orderly_run hrun
      cases hs with
      | call hi r => exact (hord.slot hi trivial).2
      | daemon hd hstep => exact (hord.daemon hd (not_over_of_step hstep)).2
      | _ => exact absurd hcalls not_false
    · exact ih e he hcalls

theorem calls_find_clients_exited : ∃ tr, Instance.Run Sample.plan tr Sample.exited ∧
    ∀ e ∈ tr, e.2.Calls → e.1.pool = true ∧ e.1.client = true := by
  obtain ⟨tr, h⟩ := run_exited
  exact ⟨tr, h, calls_find_clients h⟩

/-! ## 6. What a slot has called -/

/-- The calls of slot `i`, in order. -/
def slotCalls (i : Nat) : List (Instance × InstanceLabel) → List (Event Op Ans PyExc)
  | [] => []
  | (_, .call j o r) :: tr => if j = i then slotCalls i tr ++ [⟨o, r⟩] else slotCalls i tr
  | _ :: tr => slotCalls i tr

/-- The pops of slot `i` that were answered after the signal. -/
def latePops (i : Nat) : List (Instance × InstanceLabel) → Nat
  | [] => 0
  | (P, .call j .brpop _) :: tr =>
    if j = i ∧ P.shutdown = true then latePops i tr + 1 else latePops i tr
  | _ :: tr => latePops i tr

/-- The pass of a slot. -/
abbrev Plan.pass (p : Plan) : Py Unit := workerIteration p.lifecycle.depth p.lifecycle.run

/-- **The calls of a slot that is where it is**: whole passes, and what it has made of a further one. -/
def SlotStory (p : Plan) (es : List (Event Op Ans PyExc)) : Slot → Prop
  | .top => Passes p.pass es
  | .stopped => Passes p.pass es
  | .body rest => ∃ es₁ es₂, es = es₁ ++ es₂ ∧ Passes p.pass es₁ ∧ Leads p.pass es₂ rest
  | .dead _ => ∃ es₁ r, es = es₁ ++ [⟨.brpop, r⟩] ∧ Passes p.pass es₁ ∧
      Escapes p.lifecycle.depth .brpop r

/-- The rest of a pass after its pop stays one. -/
theorem handles_leads {q q' : Py Unit} {es : List (Event Op Ans PyExc)} (hq : Handles q)
    (h : Leads q es q') : Handles q' := by
  induction h with
  | here => exact hq
  | on h r ih => exact ih.2 r trivial

/-- Where a pass can have come to: it has not popped, it was answered nothing, it died of its pop, or it
    handles what it popped. -/
theorem led_cases {q : Py Unit} {es : List (Event Op Ans PyExc)} (h : Leads p.pass es q) :
    (es = [] ∧ q = p.pass) ∨ Handles q ∨
      ∃ e r, q = .raise e ∧ es = [⟨.brpop, r⟩] ∧ Escapes p.lifecycle.depth .brpop r := by
  obtain ⟨k₀, hpass, hhandles, hraise⟩ := pass_pop p.lifecycle
  rcases h.first with hq | ⟨o, k, r, es', hp, rfl, hl⟩
  · exact Or.inl hq
  · cases hp.symm.trans hpass
    refine Or.inr ?_
    by_cases hesc : Escapes p.lifecycle.depth .brpop r
    · obtain ⟨e, he⟩ := hraise r hesc
      rw [he] at hl
      rcases hl.first with ⟨rfl, rfl⟩ | ⟨_, _, _, _, hc, _⟩
      · exact Or.inr ⟨e, r, rfl, rfl, hesc⟩
      · cases hc
    · exact Or.inl (handles_leads (hhandles r hesc) hl)

/-- A pass that handles what it popped does not pop. -/
theorem not_handles_brpop {k : Except PyExc (Ans .brpop) → Py Unit} :
    ¬ Handles (.call .brpop k) := fun h => h.1 rfl

/-- An answered call, in the story of its slot. -/
theorem story_call {es : List (Event Op Ans PyExc)} {o : Op} {k : Except PyExc (Ans o) → Py Unit}
    (h : SlotStory p es (.body (.call o k))) (r : Except PyExc (Ans o)) :
    SlotStory p (es ++ [⟨o, r⟩]) (.after (k r)) := by
  obtain ⟨es₁, es₂, rfl, hpasses, hleads⟩ := h
  have hon := hleads.on r
  rw [List.append_assoc]
  rcases led_cases hon with ⟨hnil, _⟩ | hhandles | ⟨e, r', he, hes, hesc⟩
  · exact absurd hnil (by simp)
  · generalize hq : k r = q at hon hhandles
    cases q with
    | ret a => exact hpasses.pass hon
    | raise e => cases (show (Except.error e : Except PyExc Unit) = .ok () from hhandles)
    | call o' k' => exact ⟨es₁, es₂ ++ [⟨o, r⟩], rfl, hpasses, hon⟩
  · rw [he, hes]
    exact ⟨es₁, r', rfl, hpasses, hesc⟩

/-- The calls of the slots after a step that is no call of a slot. -/
theorem slotCalls_other (hl : ∀ j o r, l ≠ .call j o r) :
    slotCalls i ((P, l) :: tr) = slotCalls i tr := by
  cases l with
  | call j o r => exact absurd rfl (hl j o r)
  | _ => rfl

theorem latePops_other (hl : ∀ j r, l ≠ .call j .brpop r) :
    latePops i ((P, l) :: tr) = latePops i tr := by
  cases l with
  | call j o r =>
    cases o with
    | brpop => exact absurd rfl (hl j r)
    | _ => rfl
  | _ => rfl

/-- `_run` has made the tasks and has not raised. -/
def Main.Served : Main → Prop
  | .booting => False
  | .connecting => False
  | .starting => False
  | .raised _ => False
  | _ => True

/-- **The stories of the slots.** -/
structure Recorded (p : Plan) (tr : List (Instance × InstanceLabel)) (P : Instance) : Prop where
  length : P.main.Served → P.slots.length = p.cfg.workerConcurrency
  silent : P.slots = [] → ∀ i, slotCalls i tr = []
  story : ∀ (i : Nat) slot, P.slots[i]? = some slot → SlotStory p (slotCalls i tr) slot
  early : P.shutdown = false → ∀ i, latePops i tr = 0
  fresh : ∀ i : Nat, P.slots[i]? = some (.body p.pass) → latePops i tr = 0
  once : ∀ i, latePops i tr ≤ 1

/-- A step that is no call of a slot and leaves the slots alone. -/
theorem recorded_quiet (h : Recorded p tr P) (hl : ∀ j o r, l ≠ .call j o r)
    (hslots : P'.slots = P.slots) (hmain : P'.main.Served → P.main.Served)
    (hshut : P'.shutdown = false → P.shutdown = false) : Recorded p ((P, l) :: tr) P' where
  length hm := by rw [hslots]; exact h.length (hmain hm)
  silent hn i := by rw [slotCalls_other hl]; exact h.silent (hslots ▸ hn) i
  story i slot hi := by rw [slotCalls_other hl]; exact h.story i slot (hslots ▸ hi)
  early hs i := by
    rw [latePops_other fun j r => hl j .brpop r]
    exact h.early (hshut hs) i
  fresh i hi := by
    rw [latePops_other fun j r => hl j .brpop r]
    exact h.fresh i (hslots ▸ hi)
  once i := by
    rw [latePops_other fun j r => hl j .brpop r]
    exact h.once i

/-- A slot tests its `while`. -/
theorem recorded_loop (h : Recorded p tr P) (hi : P.slots[i]? = some .top) {new : Slot}
    (hstory : ∀ es, Passes p.pass es → SlotStory p es new)
    (hfresh : new = .body p.pass → P.shutdown = false) :
    Recorded p ((P, .loop i) :: tr) { P with slots := P.slots.set i new } where
  length hm := (List.length_set ..).trans (h.length hm)
  silent hn j := by
    rw [slotCalls_other (by simp)]
    exact h.silent ((List.set_eq_nil_iff _ _).mp hn) j
  story j slot hj := by
    rw [slotCalls_other (by simp)]
    rcases getElem?_set_cases hj with ⟨rfl, rfl⟩ | ⟨_, hj⟩
    · exact hstory _ (h.story j _ hi)
    · exact h.story j slot hj
  early hs j := by
    rw [latePops_other (by simp)]
    exact h.early hs j
  fresh j hj := by
    rw [latePops_other (by simp)]
    rcases getElem?_set_cases hj with ⟨_, he⟩ | ⟨_, hj⟩
    · exact h.early (hfresh he.symm) j
    · exact h.fresh j hj
  once j := by
    rw [latePops_other (by simp)]
    exact h.once j

/-- What a slot can be at after a call: not at the head of a pass. -/
theorem after_ne_pass {es : List (Event Op Ans PyExc)} {o : Op}
    {k : Except PyExc (Ans o) → Py Unit} (h : SlotStory p es (.body (.call o k)))
    (r : Except PyExc (Ans o)) : Slot.after (k r) ≠ .body p.pass := by
  obtain ⟨es₁, es₂, rfl, _, hleads⟩ := h
  obtain ⟨k₀, hpass, _⟩ := pass_pop p.lifecycle
  intro he
  have hk : k r = p.pass := by
    cases hq : k r <;> rw [hq] at he <;> cases he
    rfl
  rcases led_cases (hleads.on r) with ⟨hnil, _⟩ | hhandles | ⟨e, _, hraise, _⟩
  · exact absurd hnil (by simp)
  · rw [hk, Plan.pass, hpass] at hhandles
    exact not_handles_brpop hhandles
  · rw [hk, Plan.pass, hpass] at hraise
    cases hraise

/-- A slot that pops is at the head of its pass. -/
theorem pops_at_head {es : List (Event Op Ans PyExc)} {k : Except PyExc (Ans .brpop) → Py Unit}
    (h : SlotStory p es (.body (.call .brpop k))) : Proc.call .brpop k = p.pass := by
  obtain ⟨es₁, es₂, rfl, _, hleads⟩ := h
  rcases led_cases hleads with ⟨_, he⟩ | hhandles | ⟨_, _, hraise, _⟩
  · exact he
  · exact absurd hhandles not_handles_brpop
  · cases hraise

/-- A slot's call is answered. -/
theorem recorded_call (h : Recorded p tr P) {o : Op} {k : Except PyExc (Ans o) → Py Unit}
    (hi : P.slots[i]? = some (.body (.call o k))) (r : Except PyExc (Ans o)) :
    Recorded p ((P, .call i o r) :: tr) { P with slots := P.slots.set i (.after (k r)) } := by
  have hstory := h.story i _ hi
  have hcalls : ∀ j, slotCalls j ((P, .call i o r) :: tr) =
      if i = j then slotCalls j tr ++ [⟨o, r⟩] else slotCalls j tr := fun j => rfl
  -- a pop is counted at most once: the slot has not popped since the signal
  have hpops : ∀ j, latePops j ((P, .call i o r) :: tr) = latePops j tr ∨
      (j = i ∧ P.shutdown = true ∧ latePops j ((P, .call i o r) :: tr) = 1) := by
    intro j
    cases o with
    | brpop =>
      by_cases hj : i = j ∧ P.shutdown = true
      · refine Or.inr ⟨hj.1.symm, hj.2, ?_⟩
        show (if i = j ∧ P.shutdown = true then latePops j tr + 1 else latePops j tr) = 1
        rw [if_pos hj, ← hj.1, h.fresh i (by rw [hi, pops_at_head hstory])]
      · exact Or.inl (if_neg hj)
    | _ => exact Or.inl rfl
  constructor
  case length => exact fun hm => (List.length_set ..).trans (h.length hm)
  case silent =>
    intro hn
    rw [(List.set_eq_nil_iff _ _).mp hn] at hi
    cases hi
  case story =>
    intro j slot hj
    rw [hcalls]
    rcases getElem?_set_cases hj with ⟨rfl, rfl⟩ | ⟨hne, hj⟩
    · rw [if_pos rfl]
      exact story_call hstory r
    · rw [if_neg (Ne.symm hne)]
      exact h.story j slot hj
  case early =>
    intro hs j
    rcases hpops j with he | ⟨_, hshut, _⟩
    · rw [he]
      exact h.early hs j
    · rw [show P.shutdown = false from hs] at hshut
      cases hshut
  case fresh =>
    intro j hj
    rcases getElem?_set_cases hj with ⟨rfl, he⟩ | ⟨hne, hj⟩
    · exact absurd he.symm (after_ne_pass hstory r)
    · rcases hpops j with he | ⟨he, _⟩
      · rw [he]
        exact h.fresh j hj
      · exact absurd he hne
  case once =>
    intro j
    rcases hpops j with he | ⟨_, _, he⟩
    · rw [he]
      exact h.once j
    · exact Nat.le_of_eq he

/-- STEP: the stories go on. -/
theorem recorded_step (h : Recorded p tr P) (hord : Orderly P) (hs : Instance.Step p P l P') :
    Recorded p ((P, l) :: tr) P' := by
  cases hs with
  | initPool hm => exact recorded_quiet h (by simp) rfl (fun h => h.elim) id
  | init hm => exact recorded_quiet h (by simp) rfl (fun h => h.elim) id
  | bootFails e hm => exact recorded_quiet h (by simp) rfl (fun h => h.elim) id
  | closeFails e hm => exact recorded_quiet h (by simp) rfl (fun h => h.elim) id
  | signal hm _ => exact recorded_quiet h (by simp) rfl id (fun h => by cases h)
  | daemon hd hstep => exact recorded_quiet h (by simp) rfl id id
  | cancel _ ha hover => exact recorded_quiet h (by simp) rfl id id
  | drain hm _ => exact recorded_quiet h (by simp) rfl (fun _ => by rw [hm]; trivial) id
  | drained hm _ => exact recorded_quiet h (by simp) rfl (fun _ => by rw [hm]; trivial) id
  | reaped hm _ => exact recorded_quiet h (by simp) rfl (fun _ => by rw [hm]; trivial) id
  | closePool hm => exact recorded_quiet h (by simp) rfl (fun _ => by rw [hm]; trivial) id
  | close hm => exact recorded_quiet h (by simp) rfl (fun _ => by rw [hm]; trivial) id
  | enter hi hrun =>
    obtain ⟨k, hk, _⟩ := pass_pop p.lifecycle
    refine recorded_loop h hi (fun es hes => ?_) fun _ => hrun
    rw [hk]
    exact ⟨es, [], (List.append_nil es).symm, hes, by rw [Plan.pass, hk]; exact .here⟩
  | leave hi _ => exact recorded_loop h hi (fun es hes => hes) fun he => by cases he
  | call hi r => exact recorded_call h hi r
  | start hm =>
    have hcounts := hord.counts
    unfold Instance.Counts at hcounts
    rw [hm] at hcounts
    have hsilent := h.silent hcounts.1
    have htop : ∀ (i : Nat) slot, p.slots[i]? = some slot → slot = .top := fun i slot hi =>
      List.eq_of_mem_replicate (List.mem_of_getElem? hi)
    refine ⟨fun _ => List.length_replicate .., fun _ i => hsilent i, fun i slot hi => ?_, h.early,
      fun i hi => ?_, h.once⟩
    · rw [htop i slot hi, slotCalls_other (by simp), hsilent]
      exact .none
    · cases htop i _ hi

theorem recorded_run (h : Instance.Run p tr P) : Recorded p tr P := by
  induction h with
  | start =>
    exact ⟨fun h => h.elim, fun _ _ => rfl, fun i slot hi => (by cases hi), fun _ _ => rfl,
      fun i hi => (by cases hi), fun _ => Nat.zero_le _⟩
  | step hrun hs ih => exact recorded_step ih (orderly_run hrun) hs

/-- What a process that exits leaves of slot `i`: every pass it began has ended, a popped job's
    lifecycle with it, except that the slot may have died of a pop; and it popped at most once after the
    signal. -/
structure Drained (p : Plan) (tr : List (Instance × InstanceLabel)) (i : Nat) : Prop where
  whole : Passes p.pass (slotCalls i tr) ∨
    ∃ es r, slotCalls i tr = es ++ [⟨.brpop, r⟩] ∧ Passes p.pass es ∧
      Escapes p.lifecycle.depth .brpop r
  late : latePops i tr ≤ 1

/-- **A process that exits has cut no job short**: each slot has ended every pass it began, the daemons
    are over, and both clients are closed. -/
theorem exits_drained (h : Instance.Run p tr P) (hexit : P.main = .exited) :
    (P.slots.length = p.cfg.workerConcurrency ∧ ∀ i < p.cfg.workerConcurrency, Drained p tr i) ∧
      (∀ d ∈ P.daemons, d.2.Over) ∧ P.pool = false ∧ P.client = false := by
  have hrec := recorded_run h
  have hcounts := (orderly_run h).counts
  unfold Instance.Counts at hcounts
  rw [hexit] at hcounts
  obtain ⟨hpool, hclient, _, hgone, hover⟩ := hcounts
  have hlen := hrec.length (by rw [hexit]; trivial)
  refine ⟨⟨hlen, fun i hi => ⟨?_, hrec.once i⟩⟩, hover, hpool, hclient⟩
  have hslot := List.getElem?_eq_getElem (hlen ▸ hi : i < P.slots.length)
  have hstory := hrec.story i _ hslot
  have hleft := hgone _ (List.mem_of_getElem? hslot)
  generalize P.slots[i] = slot at hstory hleft
  cases slot with
  | top => exact absurd trivial hleft
  | body rest => exact absurd trivial hleft
  | stopped => exact Or.inl hstory
  | dead e => exact Or.inr hstory

theorem exits_drained_exited : ∃ tr, Instance.Run Sample.plan tr Sample.exited ∧
    (Sample.exited.slots.length = Sample.plan.cfg.workerConcurrency ∧
      ∀ i < Sample.plan.cfg.workerConcurrency, Drained Sample.plan tr i) ∧
    (∀ d ∈ Sample.exited.daemons, d.2.Over) ∧ Sample.exited.pool = false ∧
      Sample.exited.client = false := by
  obtain ⟨tr, h⟩ := run_exited
  exact ⟨tr, h, exits_drained h rfl⟩

end Steps

/-! ## 7. After the signal -/

/-- How far `_run` is from its end. -/
def Main.left : Main → Nat
  | .booting => 8
  | .connecting => 7
  | .starting => 6
  | .serving => 5
  | .draining => 4
  | .reaping => 3
  | .closingPool => 2
  | .closingClient => 1
  | .exited => 0
  | .raised _ => 0

/-- How far a slot is from leaving its loop, once the event is set. -/
def Slot.standing : Slot → Standing Op Ans PyExc Unit
  | .top => (1, .ret ())
  | .body rest => (2, rest)
  | _ => (0, .ret ())

/-- The same for a daemon. A sleep of the purge may be followed by a pass, one of the others by the end. -/
def Daemon.standing (name : DaemonName) : Daemon → Standing Op Ans PyExc Unit
  | .loop => (1, .ret ())
  | .body rest => (3, rest)
  | .refresh => (3, .ret ())
  | .sleep =>
    match name with
    | .nightlyPurge => (4, .ret ())
    | _ => (2, .ret ())
  | .idle => (1, .ret ())
  | _ => (0, .ret ())

def Instance.standings (P : Instance) : List (Standing Op Ans PyExc Unit) :=
  P.slots.map Slot.standing ++ P.daemons.map fun d => d.2.standing d.1

/-- `Q` is nearer to the end than `P`. -/
def Nearer (Q P : Instance) : Prop :=
  Prod.Lex (· < ·) Leaner (Q.main.left, Q.standings) (P.main.left, P.standings)

theorem wellFounded_nearer : WellFounded Nearer :=
  InvImage.wf (fun P : Instance => (P.main.left, P.standings))
    (Nat.lt_wfRel.wf.prod_lex wellFounded_leaner)

section Steps

variable {p : Plan} {P P' : Instance} {l : InstanceLabel} {tr : List (Instance × InstanceLabel)}
  {i d : Nat}

/-- What a slot does with an answer brings it nearer. -/
theorem lower_after {o : Op} {k : Except PyExc (Ans o) → Py Unit} (r : Except PyExc (Ans o)) :
    Lower (Slot.after (k r)).standing (Slot.body (.call o k)).standing := by
  cases hq : k r with
  | ret a => exact .left _ _ (by decide)
  | raise e => exact .left _ _ (by decide)
  | call o' k' => exact .right _ ⟨o, k, r, rfl, hq.symm⟩

/-- With the event set every step of a daemon brings it nearer. -/
theorem lower_daemon {cfg : Settings} {name : DaemonName} {a b : Daemon} {l : DaemonLabel}
    (h : Daemon.Step cfg true name a l b) : Lower (b.standing name) (a.standing name) := by
  cases h with
  | stop hs => exact .left _ _ (by decide)
  | sweep hs => cases hs
  | refresh hs => cases hs
  | purgeSleep hs => cases hs
  | @call name o k r =>
    cases hq : k r with
    | ret a => cases name <;> exact .left _ _ (by decide)
    | raise e => exact .left _ _ (show 0 < 3 by decide)
    | call o' k' => exact .right _ ⟨o, k, r, rfl, hq.symm⟩
  | refreshed => exact .left _ _ (by decide)
  | wake hn =>
    cases name with
    | nightlyPurge => exact absurd rfl hn
    | sweeper => exact .left _ _ (by decide)
    | rateRefresh => exact .left _ _ (by decide)
  | purge =>
    cases hq : purgeIteration cfg with
    | ret a => exact .left _ _ (show 1 < 4 by decide)
    | raise e => exact .left _ _ (show 0 < 4 by decide)
    | call o k => exact .left _ _ (show 3 < 4 by decide)
  | purgeStop hs => exact .left _ _ (by decide)
  | release hs => exact .left _ _ (by decide)

/-- A slot moves. -/
theorem nearer_slot {old new : Slot} (hi : P.slots[i]? = some old)
    (hlow : Lower new.standing old.standing) :
    Nearer { P with slots := P.slots.set i new } P := by
  refine .right _ ⟨i, old.standing, new.standing, ?_, ?_, hlow⟩
  · have hlt := (List.getElem?_eq_some_iff.mp hi).1
    rw [Instance.standings, List.getElem?_append_left (by rw [List.length_map]; exact hlt),
      List.getElem?_map, hi]
    rfl
  · have hlt := (List.getElem?_eq_some_iff.mp hi).1
    rw [Instance.standings, Instance.standings, List.set_append_left i _ (by rw [List.length_map]; exact hlt),
      List.map_set]

/-- A daemon moves. -/
theorem nearer_daemon {name : DaemonName} {a b : Daemon} (hd : P.daemons[d]? = some (name, a))
    (hlow : Lower (b.standing name) (a.standing name)) :
    Nearer { P with daemons := P.daemons.set d (name, b) } P := by
  refine .right _ ⟨P.slots.length + d, a.standing name, b.standing name, ?_, ?_, hlow⟩
  · rw [Instance.standings, List.getElem?_append_right (by rw [List.length_map]; omega),
      List.length_map, Nat.add_sub_cancel_left, List.getElem?_map, hd]
    rfl
  · rw [Instance.standings, Instance.standings,
      List.set_append_right _ _ (by rw [List.length_map]; omega), List.length_map,
      Nat.add_sub_cancel_left, List.map_set]

/-- `_run` moves on. -/
theorem nearer_main {m : Main} (hm : P.main = m) (h : P'.main.left < m.left) : Nearer P' P :=
  .left _ _ (hm ▸ h)

/-- STEP: with the event set every step brings the process nearer to its end. -/
theorem nearer_step (hs : Instance.Step p P l P') (hshut : P.shutdown = true) :
    Nearer P' P := by
  cases hs with
  | initPool hm => exact nearer_main hm (Nat.lt_succ_self _)
  | init hm => exact nearer_main hm (Nat.lt_succ_self _)
  | start hm => exact nearer_main hm (Nat.lt_succ_self _)
  | bootFails e hm =>
    rcases hm with hm | hm | hm <;> exact nearer_main hm (Nat.succ_pos _)
  | signal hm hs =>
    rw [hshut] at hs
    cases hs
  | enter hi hs =>
    rw [hshut] at hs
    cases hs
  | leave hi _ => exact nearer_slot hi (.left _ _ (by decide))
  | call hi r => exact nearer_slot hi (lower_after r)
  | daemon hd hstep => exact nearer_daemon hd (lower_daemon (hshut ▸ hstep))
  | drain hm _ => exact nearer_main hm (Nat.lt_succ_self _)
  | drained hm _ => exact nearer_main hm (Nat.lt_succ_self _)
  | @cancel d name a _ ha hover =>
    refine nearer_daemon ha (.left _ _ ?_)
    cases a with
    | sleep => cases name <;> decide
    | stopped => exact absurd trivial hover
    | cancelled => exact absurd trivial hover
    | dead e => exact absurd trivial hover
    | _ => exact Nat.succ_pos _
  | reaped hm _ => exact nearer_main hm (Nat.lt_succ_self _)
  | closePool hm => exact nearer_main hm (Nat.lt_succ_self _)
  | close hm => exact nearer_main hm (Nat.lt_succ_self _)
  | closeFails e hm =>
    rcases hm with hm | hm <;> exact nearer_main hm (Nat.succ_pos _)

theorem shutdown_step (hs : Instance.Step p P l P') (hshut : P.shutdown = true) :
    P'.shutdown = true := by
  cases hs <;> first | exact hshut | rfl

/-- `_run` has returned or raised. -/
def Main.Ended : Main → Prop
  | .exited => True
  | .raised _ => True
  | _ => False

/-- A process that has not ended can go on, once the event is set. -/
theorem goes_on (h : Orderly P) (hshut : P.shutdown = true) (hmain : ¬ P.main.Ended) :
    ∃ l P', Instance.Step p P l P' := by
  cases hm : P.main with
  | booting => exact ⟨_, _, .initPool hm⟩
  | connecting => exact ⟨_, _, .init hm⟩
  | starting => exact ⟨_, _, .start hm⟩
  | serving => exact ⟨_, _, .drain hm hshut⟩
  | draining =>
    by_cases hgone : ∀ slot ∈ P.slots, ¬ slot.Consuming
    · exact ⟨_, _, .drained hm hgone⟩
    · simp only [not_forall, Classical.not_not] at hgone
      obtain ⟨slot, hmem, hcons⟩ := hgone
      obtain ⟨i, hi⟩ := List.mem_iff_getElem?.mp hmem
      cases slot with
      | top => exact ⟨_, _, .leave hi hshut⟩
      | body rest =>
        obtain ⟨o, k, rfl⟩ := h.awaiting rest hmem
        exact ⟨_, _, .call hi (.error (.timeoutError []))⟩
      | stopped => exact hcons.elim
      | dead e => exact hcons.elim
  | reaping =>
    by_cases hover : ∀ d ∈ P.daemons, d.2.Over
    · exact ⟨_, _, .reaped hm hover⟩
    · simp only [not_forall] at hover
      obtain ⟨⟨name, a⟩, hmem, ha⟩ := hover
      obtain ⟨d, hd⟩ := List.mem_iff_getElem?.mp hmem
      exact ⟨_, _, .cancel hm hd ha⟩
  | closingPool => exact ⟨_, _, .closePool hm⟩
  | closingClient => exact ⟨_, _, .close hm⟩
  | exited => rw [hm] at hmain; exact absurd trivial hmain
  | raised e => rw [hm] at hmain; exact absurd trivial hmain

/-- A process that has ended is at rest. -/
theorem at_rest (h : Orderly P) (hmain : P.main.Ended) : ¬ Instance.Step p P l P' := by
  intro hs
  have hslot : ∀ {i : Nat} {slot : Slot}, P.slots[i]? = some slot → ¬ slot.Consuming := by
    intro i slot hi hcons
    rcases (h.slot hi hcons).1 with hm | ⟨hm, _⟩ <;> rw [hm] at hmain <;> exact hmain
  have hdaemon : ∀ {d : Nat} {x : DaemonName × Daemon}, P.daemons[d]? = some x → x.2.Over := by
    intro d x hd
    by_contra hx
    rcases (h.daemon hd hx).1 with hm | hm | hm <;> rw [hm] at hmain <;> exact hmain
  cases hs with
  | enter hi _ => exact hslot hi trivial
  | leave hi _ => exact hslot hi trivial
  | call hi r => exact hslot hi trivial
  | daemon hd hstep => exact not_over_of_step hstep (hdaemon hd)
  | bootFails e hm => rcases hm with hm | hm | hm <;> rw [hm] at hmain <;> exact hmain
  | closeFails e hm => rcases hm with hm | hm <;> rw [hm] at hmain <;> exact hmain
  | initPool hm => rw [hm] at hmain; exact hmain
  | init hm => rw [hm] at hmain; exact hmain
  | start hm => rw [hm] at hmain; exact hmain
  | signal hm _ => rw [hm] at hmain; exact hmain
  | drain hm _ => rw [hm] at hmain; exact hmain
  | drained hm _ => rw [hm] at hmain; exact hmain
  | cancel hm _ _ => rw [hm] at hmain; exact hmain
  | reaped hm _ => rw [hm] at hmain; exact hmain
  | closePool hm => rw [hm] at hmain; exact hmain
  | close hm => rw [hm] at hmain; exact hmain

/-- **A signalled process stops.** Whatever its calls are answered and in whatever order its tasks move,
    it has no endless run, and it comes to rest only where `_run` has returned or raised. -/
theorem shutdown_completes (h : Instance.Run p tr P) (hshut : P.shutdown = true) :
    Acc (fun Q' Q => ∃ l, Instance.Step p Q l Q') P ∧
      ((∀ l P', ¬ Instance.Step p P l P') ↔ P.main.Ended) := by
  refine ⟨?_, fun hrest => ?_, fun hmain l P' => at_rest (orderly_run h) hmain⟩
  · have hacc : ∀ Q, Acc Nearer Q → Q.shutdown = true →
        Acc (fun Q' Q => ∃ l, Instance.Step p Q l Q') Q := by
      intro Q hQ
      induction hQ with
      | intro Q _ ih =>
        intro hs
        exact ⟨_, fun Q' ⟨l, hstep⟩ => ih Q' (nearer_step hstep hs) (shutdown_step hstep hs)⟩
    exact hacc P (wellFounded_nearer.apply P) hshut
  · by_contra hmain
    obtain ⟨l, P', hs⟩ := goes_on (p := p) (orderly_run h) hshut hmain
    exact hrest l P' hs

theorem shutdown_completes_signalled :
    Acc (fun Q' Q => ∃ l, Instance.Step Sample.plan Q l Q') Sample.signalled ∧
      ((∀ l P', ¬ Instance.Step Sample.plan Sample.signalled l P') ↔ Sample.signalled.main.Ended) := by
  obtain ⟨tr, h⟩ := run_signalled
  exact shutdown_completes h rfl

end Steps

end InvoiceOcr
