/-
  File:      InvoiceOcr/Backpressure.lean
  Subject:   HOW LONG THE QUEUE CAN GET. The reject threshold is checked before the push, and workers
             push back without a check.

  * `load` -- a task that may still add a message: a request past its sample, a pass past its pop;
  * `load_step` -- STEP: queue and load together do not grow, but for an admission, and that is below
    the threshold;
  * **`queue_bounded`** -- RUN: with Redis up, at most `m` requests in progress and `w` passes under way,
    the queue is at most `BACKPRESSURE_QUEUE_REJECT - 1 + m + w` long.
-/
import InvoiceOcr.Provenance
import InvoiceOcr.Requeue
import InvoiceOcr.Tokens

namespace InvoiceOcr

open PyJson Async

/-- Tasks of the system. -/
abbrev SysTask := Task Op Ans PyExc TaskName

/-! ## 1. Load -/

/-- A request that has not been answered yet. -/
def isRequestInProgress (t : SysTask) : Bool :=
  match t.name with
  | .submit _ _ => decide ¬ t.rest.Ended
  | _ => false

/-- A pass of a worker slot that has not ended. -/
def isPassUnderWay (t : SysTask) : Bool :=
  match t.name with
  | .worker _ => decide ¬ t.rest.Ended
  | _ => false

/-- At most `m` requests in progress and `w` busy slots. -/
structure WithinCapacity (m w : Nat) (s : SysState) : Prop where
  requests : s.tasks.countP isRequestInProgress ≤ m
  slots : s.tasks.countP isPassUnderWay ≤ w

/-- The tasks that push: requests and passes. -/
def TaskName.feeds : TaskName → Bool
  | .worker _ => true
  | .submit _ _ => true
  | _ => false

/-- The call before which a task holds nothing: the depth sample, the pop. -/
def Op.isEntry : Op → Bool
  | .llen => true
  | .brpop => true
  | _ => false

/-- **How many messages a task may still add**: one between its entry and its end. -/
def load (t : SysTask) : Nat :=
  match t.rest with
  | .call o _ => (t.name.feeds && !o.isEntry).toNat
  | _ => 0

/-- One for a task that feeds the queue and has not ended. -/
def busy (t : SysTask) : Nat := (t.name.feeds && decide ¬ t.rest.Ended).toNat

section Load

variable {n : TaskName} {o : Op} {k : Except PyExc (Ans o) → Py Unit}

theorem busy_call : busy ⟨n, .call o k⟩ = n.feeds.toNat := by
  show (n.feeds && true).toNat = _
  rw [Bool.and_true]

theorem busy_le (n : TaskName) (p : Py Unit) : busy ⟨n, p⟩ ≤ n.feeds.toNat := by
  unfold busy
  cases n.feeds
  · exact Nat.le_refl _
  · exact Bool.toNat_le _

theorem load_le_busy (t : SysTask) : load t ≤ busy t := by
  obtain ⟨n, p⟩ := t
  cases p with
  | ret a => exact Nat.zero_le _
  | raise e => exact Nat.zero_le _
  | call o k =>
    rw [busy_call]
    show (n.feeds && !o.isEntry).toNat ≤ _
    cases n.feeds <;> cases o.isEntry <;> decide

theorem load_le (n : TaskName) (p : Py Unit) : load ⟨n, p⟩ ≤ n.feeds.toNat :=
  Nat.le_trans (load_le_busy _) (busy_le n p)

theorem load_ended {t : SysTask} (h : t.rest.Ended) : load t = 0 := by
  unfold load
  split
  · next o k hrest =>
    rw [hrest] at h
    exact h.elim
  · rfl

/-- A task in the middle of its work. -/
theorem load_call (ho : o.isEntry = false) : load ⟨n, .call o k⟩ = n.feeds.toNat := by
  show (n.feeds && !o.isEntry).toNat = _
  rw [ho, Bool.not_false, Bool.and_true]

/-- What feeds the queue is a request or a pass. -/
theorem busy_eq (t : SysTask) :
    busy t = (isRequestInProgress t).toNat + (isPassUnderWay t).toNat := by
  obtain ⟨n, p⟩ := t
  cases n with
  | worker q => exact (Nat.zero_add _).symm
  | _ => rfl

theorem tally_busy (ts : List SysTask) :
    tally busy ts = ts.countP isRequestInProgress + ts.countP isPassUnderWay := by
  induction ts with
  | nil => rfl
  | cons t ts ih =>
    have hone : ∀ b : Bool, b.toNat = if b = true then 1 else 0 := by decide
    rw [tally_cons, List.countP_cons, List.countP_cons, busy_eq, hone, hone, ih]
    omega

end Load

/-! ## 2. Who pushes and who samples -/

section Calls

variable {D : Deployment}

/-- Only the tasks that feed the queue push, only requests sample its depth. -/
def Feeds (n : TaskName) (o : Op) : Prop :=
  (∀ m, o = .lpush m → n.feeds = true) ∧ (o = .llen → ∃ j u, n = .submit j u)

theorem Phase.pre_llen {cfg : Settings} {p : Phase} (h : Phase.pre cfg p .llen) :
    ∃ j u, p = .submitting j u := by
  cases p <;> simp_all [Phase.pre, Phase.Works, Phase.FailsJob, Op.IsStage, Op.isStage]

theorem feeds_worker (p : Nat) : (D.boot (.worker p)).OnlyCalls (Feeds (.worker p)) := by
  refine onlyCalls_of_wp (N := Phase.NoInsert) (fun q o hq hpre => ⟨fun _ _ => rfl, ?_⟩)
    (fun q o r hq hpre => noInsert_next hpre hq r) (fun _ _ _ => trivial)
    (obeys_iteration (D.worker p)) nofun
  intro heq
  subst heq
  obtain ⟨j, u, rfl⟩ := Phase.pre_llen hpre
  exact absurd rfl (hq j u)

theorem feeds_submit (j : Uuid) (u : Str) :
    (D.boot (.submit j u)).OnlyCalls (Feeds (.submit j u)) := by
  have hall : ∀ o, Feeds (.submit j u) o := fun o => ⟨fun _ _ => rfl, fun _ => ⟨j, u, rfl⟩⟩
  have hbody : ∀ p : Py Unit, p.OnlyCalls (Feeds (.submit j u)) := by
    intro p
    induction p with
    | ret a => exact trivial
    | raise e => exact trivial
    | call o k ih => exact ⟨hall o, ih⟩
  exact hbody _

/-- A statement that neither pushes nor samples. -/
theorem feeds_statement {n : TaskName} {o : Op} {f : PyExc → PyExc}
    (ho : ∀ m, o ≠ .lpush m ∧ o ≠ .llen) :
    ((await o).tryCatch fun e => .raise (f e)).OnlyCalls (Feeds n) := by
  refine onlyCalls_mapped ⟨fun m hm => ?_, fun hm => ?_⟩ f
  · exact absurd hm (ho m).1
  · exact absurd hm (ho []).2

/-- The daemons neither push nor sample. -/
theorem feeds_sweepRows (rows : List JobRow) (count : Nat) :
    (sweepRows rows count).OnlyCalls (Feeds .sweep) := by
  induction rows generalizing count with
  | nil => exact trivial
  | cons r rows ih =>
    refine onlyCalls_tryElse ?_ (fun _ => ih count) fun _ => ih (count + 1)
    refine onlyCalls_tryElse (feeds_statement fun m => ?_) (fun _ => trivial) fun _ => trivial
    simp

theorem feeds_boot (n : TaskName) : (D.boot n).OnlyCalls (Feeds n) := by
  cases n with
  | worker p => exact feeds_worker p
  | submit j u => exact feeds_submit j u
  | sweep =>
    refine onlyCalls_tryElse ?_ (fun _ => trivial) fun _ => trivial
    refine onlyCalls_bind (feeds_statement fun m => ?_) fun rows => feeds_sweepRows rows 0
    simp
  | purge =>
    refine onlyCalls_tryElse (feeds_statement fun m => ?_) (fun _ => trivial) fun _ => trivial
    simp

/-! ## 3. The gate -/

/-- A task may go on until it has seen a depth that is too large. -/
def gate (cfg : Settings) : Monitor Op Ans PyExc Bool where
  pre g _ := g = true
  rely _ _ _ := True
  next
    | _, .llen, .ok depth => decide (depth < cfg.backpressureQueueReject)
    | g, _, _ => g

theorem gate_quiet {cfg : Settings} {α : Type} {p : Py α} (hp : p.OnlyCalls (· ≠ .llen)) :
    wp (gate cfg) (fun _ _ => True) p true := by
  refine wp_quiet (fun o _ => rfl) (fun o r ho => ?_) hp fun _ => trivial
  cases o <;> first | rfl | exact absurd rfl ho

/-- `check_backpressure` lets a request through an open gate only. -/
theorem gate_check {cfg : Settings} :
    wp (gate cfg) (fun x g => x = .ok () → g = true) (checkBackpressure cfg) true := by
  have hdepth : wp (gate cfg)
      (fun x g => (∀ d, x = .ok d → g = decide (d < cfg.backpressureQueueReject)) ∧
        ∀ e, x = .error e → g = true) getQueueDepth true :=
    wp_mapped (M := gate cfg) (o := .llen) rfl
      (fun d _ => ⟨fun d' he => by cases he; rfl, nofun⟩) fun e _ => ⟨nofun, fun _ _ => rfl⟩
  refine wp_tryElse_of hdepth (fun d g hg => ?_) fun e g hg => fun _ => hg.2 e rfl
  have hg := hg.1 d rfl
  split
  · exact nofun
  · next hlt =>
    intro _
    rw [hg]
    exact decide_eq_true (Nat.not_le.mp hlt)

theorem gate_submit (j : Uuid) (u : Str) :
    wp (gate D.cfg) (fun _ _ => True) (submitReceipt D.cfg D.lib j u) true := by
  have hpush : (enqueue j u).OnlyCalls (· ≠ .llen) := by
    refine onlyCalls_tryElse ?_ (fun e => ?_) fun _ => trivial
    · exact onlyCalls_mapped (o := .lpush _) nofun _
    · split <;> exact trivial
  have hrest : (validateAndPersist D.cfg D.lib j u).OnlyCalls (· ≠ .llen) := by
    unfold validateAndPersist
    split
    · refine onlyCalls_tryElse ?_ (fun e => ?_) fun _ => hpush
      · exact onlyCalls_mapped (o := .insertJob _ _ _) nofun _
      · split <;> exact trivial
    · split <;> exact trivial
  refine wp_tryElse_of (R := fun _ _ => True) ?_ (fun _ _ _ => trivial) fun e g _ => ?_
  · refine wp_bind_of gate_check (fun a g hg => ?_) fun _ _ _ => trivial
    rw [hg rfl]
    exact gate_quiet hrest
  · split <;> exact trivial

theorem noSample_of_feeds {n : TaskName} {p : Py Unit} (h : p.OnlyCalls (Feeds n))
    (hn : ∀ j u, n ≠ .submit j u) : p.OnlyCalls (· ≠ .llen) := by
  refine onlyCalls_mono (fun o ho he => ?_) h
  obtain ⟨j, u, rfl⟩ := ho.2 he
  exact hn j u rfl

/-- **The protocol of the depth sample.** -/
def Deployment.gateProtocol (D : Deployment) : D.sys.Protocol Bool where
  toMonitor := gate D.cfg
  start _ := true
  final _ _ := True
  boots
    | .worker p => gate_quiet (noSample_of_feeds (feeds_worker p) nofun)
    | .submit j u => wp_bind_of (gate_submit j u) (fun _ _ _ => trivial) fun _ _ _ => trivial
    | .sweep => gate_quiet (noSample_of_feeds (feeds_boot .sweep) nofun)
    | .purge => gate_quiet (noSample_of_feeds (feeds_boot .purge) nofun)

end Calls

/-! ## 4. Queue and load -/

section Bound

variable {D : Deployment} {w₀ w' : World} {tr : SysTrace} {s : SysState} {i : Nat} {n : TaskName}
  {o : Op} {k : Except PyExc (Ans o) → Py Unit} {r : Except PyExc (Ans o)} {p : Phase}

/-- What a sample that is too large leaves a task to do: nothing. -/
theorem ended_of_sample {depth : Nat} {k : Except PyExc Nat → Py Unit}
    (hr : D.sys.Run w₀ tr s) (ht : s.tasks[i]? = some ⟨n, .call .llen k⟩)
    (hsem : D.sys.sem s.world .llen (.ok depth) w') (hfull : D.cfg.backpressureQueueReject ≤ depth) :
    (k (.ok depth)).Ended := by
  have hob := D.gateProtocol.obeyed_of_run (fun _ _ _ => trivial) hr
  have hob' := D.gateProtocol.obeyed_of_run (fun _ _ _ => trivial) (.step hr (.call ht hsem))
  obtain ⟨g, hg⟩ := hob.phase ht
  have hlt := (List.getElem?_eq_some_iff.mp ht).1
  have hlt' := (List.getElem?_eq_some_iff.mp hg).1
  refine hob'.ended (i := i) (t := ⟨n, k (.ok depth)⟩) (p := false) ?_ ?_ fun _ => nofun
  · exact List.getElem?_set_self hlt
  · rw [Sys.Protocol.phases_call hg, List.getElem?_set_self hlt']
    exact congrArg some (decide_eq_false (Nat.not_lt.mpr hfull))

/-- What a situation that permits nothing leaves a task to do. -/
theorem ended_of_next (hr : D.sys.Run w₀ tr s) (ht : s.tasks[i]? = some ⟨n, .call o k⟩)
    (hp : (D.protocol.phases tr)[i]? = some p) (hsem : D.sys.sem s.world o r w')
    (hstop : ∀ o', ¬ Phase.pre D.cfg (Phase.next D.cfg p o r) o') : (k r).Ended := by
  have hob := D.protocol.obeyed_of_run (fun _ _ _ => trivial) (.step hr (.call ht hsem))
  have hlt := (List.getElem?_eq_some_iff.mp ht).1
  have hlt' := (List.getElem?_eq_some_iff.mp hp).1
  refine hob.ended (i := i) (t := ⟨n, k r⟩) (p := Phase.next D.cfg p o r) ?_ ?_ hstop
  · exact List.getElem?_set_self hlt
  · rw [Sys.Protocol.phases_call hp, List.getElem?_set_self hlt']
    rfl

/-- STEP: **a call trades load for length.** A request admitted by its sample takes up load, and the
    sample was below the threshold. -/
theorem load_step (hr : D.sys.Run w₀ tr s) (ht : s.tasks[i]? = some ⟨n, .call o k⟩)
    (hp : (D.protocol.phases tr)[i]? = some p) (hpre : Phase.pre D.cfg p o) (hb : ¬ p.Blipped)
    (hsem : Sem s.world o r w') (hok : o.isRedis = true → ∀ e, r ≠ .error e) :
    w'.queue.length + load ⟨n, k r⟩ ≤ s.world.queue.length + load ⟨n, .call o k⟩ ∨
      w'.queue.length < D.cfg.backpressureQueueReject := by
  have hfeeds : Feeds n o := (hr.onlyCalls feeds_boot ht).1
  have hle := load_le n (k r)
  have hchange := queueChange_of_sem hsem
  cases hchange with
  | @pushed m hq =>
    -- the push spends the load of its task
    have hended : (k (.ok ())).Ended := by
      refine ended_of_next hr ht hp hsem fun o' => ?_
      rcases pushed_next hpre hb with he | ⟨j, y, he⟩ <;> rw [he] <;> exact id
    have hn := hfeeds.1 m rfl
    rw [load_ended (t := ⟨n, k (.ok ())⟩) hended, load_call rfl, hn, hq, List.length_cons]
    exact Or.inl (Nat.le_refl _)
  | @popped m hq =>
    -- the pop takes up what the queue loses
    have hlen : s.world.queue.length = w'.queue.length + 1 := by rw [hq]; simp
    have hone : n.feeds.toNat ≤ 1 := Bool.toNat_le _
    left
    omega
  | same hq =>
    rw [hq]
    by_cases hentry : o.isEntry = true
    · cases o with
      | llen =>
        cases r with
        | error e => exact absurd rfl (hok rfl e)
        | ok depth =>
          by_cases hfull : D.cfg.backpressureQueueReject ≤ depth
          · have hended := ended_of_sample hr ht hsem hfull
            rw [load_ended (t := ⟨n, k (.ok depth)⟩) hended]
            exact Or.inl (Nat.add_le_add_left (Nat.zero_le _) _)
          · right
            have hlt : depth < D.cfg.backpressureQueueReject := Nat.not_le.mp hfull
            rw [show depth = s.world.queue.length from hsem.1] at hlt
            exact hlt
      | brpop =>
        have hended : (k r).Ended := by
          refine ended_of_next hr ht hp hsem fun o' => ?_
          cases Phase.pre_brpop hpre
          cases r with
          | error e => exact id
          | ok val =>
            cases val with
            | none => exact id
            | some m =>
              -- a pop that answers a message has shortened the queue
              obtain ⟨q, hq', rfl⟩ := hsem
              have hlen := congrArg List.length (hq'.symm.trans hq.symm)
              simp at hlen
        rw [load_ended (t := ⟨n, k r⟩) hended]
        exact Or.inl (Nat.add_le_add_left (Nat.zero_le _) _)
      | _ => cases hentry
    · have hentry' : o.isEntry = false := by simpa using hentry
      rw [load_call hentry']
      exact Or.inl (Nat.add_le_add_left hle _)

/-- The invariant: no bump has failed, queue and load are within the bound. -/
structure Bounded (bound : Nat) (s : SysState) (ps : List Phase) : Prop where
  unblipped : ∀ p ∈ ps, ¬ p.Blipped
  total : s.world.queue.length + tally load s.tasks ≤ bound

/-- The capacity is not exceeded by what a task is left with. -/
theorem tally_load_set {m w : Nat} (hcap : WithinCapacity m w s)
    (ht : s.tasks[i]? = some ⟨n, .call o k⟩) :
    tally load (s.tasks.set i ⟨n, k r⟩) ≤ m + w := by
  have hbusy : busy ⟨n, k r⟩ ≤ busy ⟨n, .call o k⟩ := by
    rw [busy_call]
    exact busy_le n (k r)
  have hle : tally load (s.tasks.set i ⟨n, k r⟩) ≤ tally busy (s.tasks.set i ⟨n, k r⟩) :=
    tally_le_tally fun t _ => load_le_busy t
  have hset := tally_set_le ht hbusy
  have htotal := tally_busy s.tasks
  have hreq := hcap.requests
  have hslots := hcap.slots
  omega

/-- STEP: a call keeps the bound. -/
theorem bounded_call {m w : Nat} (hr : D.sys.Run w₀ tr s)
    (ht : s.tasks[i]? = some ⟨n, .call o k⟩) (hp : (D.protocol.phases tr)[i]? = some p)
    (hpre : Phase.pre D.cfg p o) (hsem : Sem s.world o r w')
    (hredis : RedisOk (.call i o r)) (hcap : WithinCapacity m w s)
    (hI : Bounded (D.cfg.backpressureQueueReject + m + w - 1) s (D.protocol.phases tr)) :
    Bounded (D.cfg.backpressureQueueReject + m + w - 1) ⟨w', s.tasks.set i ⟨n, k r⟩⟩
      ((D.protocol.phases tr).set i (Phase.next D.cfg p o r)) where
  unblipped q hq := by
    rcases List.mem_or_eq_of_mem_set hq with hq | rfl
    · exact hI.unblipped q hq
    · intro hblip
      rcases blipped_next hpre hblip with hblip | ⟨hbump, x, rfl⟩
      · exact hI.unblipped p (List.mem_of_getElem? hp) hblip
      · have hno := hredis i o x rfl
        cases o <;> first | exact hbump | cases hno
  total := by
    have hok : o.isRedis = true → ∀ e, r ≠ .error e := by
      intro ho e heq
      subst heq
      rw [hredis i o e rfl] at ho
      simp at ho
    have htotal := hI.total
    have hset := tally_set (f := load) (q := ⟨n, k r⟩) ht
    show w'.queue.length + tally load (s.tasks.set i ⟨n, k r⟩) ≤ _
    rcases load_step hr ht hp hpre (hI.unblipped p (List.mem_of_getElem? hp)) hsem hok with
      hle | hlt
    · omega
    · have hload := tally_load_set (r := r) hcap ht
      omega

/-- RUN: **the queue is bounded by backpressure.** -/
theorem queue_bounded {m w : Nat} (h : D.sys.Run w₀ tr s) (hempty : w₀.queue = [])
    (hredis : ∀ e ∈ tr, RedisOk e.2) (hcap : ∀ e ∈ tr, WithinCapacity m w e.1) :
    s.world.queue.length ≤ D.cfg.backpressureQueueReject + m + w - 1 := by
  have hinv := D.protocol.run_invariant
    (G := fun s l => RedisOk l ∧ WithinCapacity m w s)
    (I := fun tr s ps => ps = D.protocol.phases tr →
      Bounded (D.cfg.backpressureQueueReject + m + w - 1) s ps) ?_ ?_ ?_ ?_ h
    fun e he => ⟨hredis e he, hcap e he⟩
  · have htotal := (hinv.2 rfl).total
    omega
  · refine fun _ => ⟨nofun, ?_⟩
    show w₀.queue.length + 0 ≤ _
    rw [hempty]
    exact Nat.zero_le _
  · intro tr s i n o k r w' p hr _ hI ht hp hpre hsem hG
    exact ⟨trivial, fun _ => bounded_call hr ht hp hpre hsem hG.1 hG.2 (hI rfl)⟩
  · intro tr s n _ _ hI _ _ _
    have hB := hI rfl
    refine ⟨fun p hp => ?_, ?_⟩
    · rcases List.mem_append.mp hp with hp | hp
      · exact hB.unblipped p hp
      · cases List.mem_singleton.mp hp
        cases n <;> exact id
    · -- a task starts before its entry
      have hload : load ⟨n, D.boot n⟩ = 0 := by
        cases n <;> rfl
      show s.world.queue.length + tally load (s.tasks ++ [⟨n, D.boot n⟩]) ≤ _
      have htotal := hB.total
      rw [tally_append, hload]
      omega
  · intro tr s w' _ _ hI hd _ _
    have hB := hI rfl
    refine ⟨hB.unblipped, ?_⟩
    show w'.queue.length + tally load s.tasks ≤ _
    rw [queue_of_drift hd]
    exact hB.total

end Bound

namespace Sample

/-- Rejecting from one queued message on. -/
def tight : Deployment := { deployment with cfg := { backpressureQueueReject := 1 } }

def second : Uuid := (Uuid.parse (List.replicate 32 '2')).get (by decide)

/-- Two requests sample the empty queue, then both push. -/
def crowd : List Move :=
  [.spawn (.submit job url), .spawn (.submit second url), .run 0, .run 1, .run 0, .run 0, .run 1,
    .run 1]

theorem replays_crowd : (tight.replay (World.fresh 0) crowd).isSome = true := by decide +kernel

def crowded : SysTrace × SysState := (tight.replay (World.fresh 0) crowd).get replays_crowd

theorem run_crowded : tight.sys.Run (World.fresh 0) crowded.1 crowded.2 :=
  replay_get_run replays_crowd

end Sample

/-- **The bound is reached**: two requests, one allowed place. -/
theorem queue_bounded_crowded : Sample.crowded.2.world.queue.length = 2 ∧
    Sample.crowded.2.world.queue.length ≤ Sample.tight.cfg.backpressureQueueReject + 2 + 0 - 1 := by
  have hup : Sample.crowded.1.all (fun e => redisUp e.2) = true := by decide +kernel
  have hcap : Sample.crowded.1.all (fun e =>
      decide (e.1.tasks.countP isRequestInProgress ≤ 2) &&
        decide (e.1.tasks.countP isPassUnderWay ≤ 0)) = true := by decide +kernel
  refine ⟨by decide +kernel, queue_bounded Sample.run_crowded rfl (fun e he i o x hl => ?_)
    fun e he => ?_⟩
  · have hstep := List.all_eq_true.mp hup e he
    rw [hl] at hstep
    simpa [redisUp] using hstep
  · obtain ⟨hreq, hslots⟩ := (Bool.and_eq_true _ _).mp (List.all_eq_true.mp hcap e he)
    exact ⟨of_decide_eq_true hreq, of_decide_eq_true hslots⟩

end InvoiceOcr
