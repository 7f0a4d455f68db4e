/-
  File:      InvoiceOcr/Workload.lean
  Subject:   THE WORK OF A MESSAGE. In which order messages are served, and what one of them can cost
             the stores and the services, over all runs.

  * `sent`, `received` -- the messages of a stretch; `queue_in_order` -- RUN: none lost, none twice;
    **`jobs_in_order`** -- RUN: the jobs that are pushed are handed over, each with its URL, in their
    order;
  * `Quote` -- what a statement, a command, a download, an inference, a token and a model call cost;
    `Quote.message` -- what a pass can cost; `afford_…` -- every stage within its share;
  * `costs_paid` -- RUN: the passes cost no more than their messages and tokens are worth;
  * `calls`, `perMessage` -- the calls to a service, and what a message can lead to;
    **`messages_pay`** -- RUN: no more calls than the messages that were taken lead to;
  * **`tokens_pay`** -- RUN: a token pays for the first attempt of an extraction and its retries.
-/
import Mathlib.Data.Set.List
import InvoiceOcr.Async.Accounts
import InvoiceOcr.Provenance
import InvoiceOcr.RowLife
import InvoiceOcr.Spending

namespace InvoiceOcr

open PyJson Async

/-! ## 1. The order of service -/

/-- The message a step has queued. -/
def queuedBy : Label Op Ans PyExc TaskName → Option Str
  | .call _ (.lpush m) (.ok _) => some m
  | _ => none

/-- The message a step has taken off the queue. -/
def takenBy : Label Op Ans PyExc TaskName → Option Str
  | .call _ .brpop (.ok m) => m
  | _ => none

/-- The messages that were queued, the latest first. -/
def sent (tr : SysTrace) : List Str := tr.filterMap fun e => queuedBy e.2

/-- The messages that were taken, the latest first. -/
def received (tr : SysTrace) : List Str := tr.filterMap fun e => takenBy e.2

section Order

variable {D : Deployment} {s s' : SysState} {l : Label Op Ans PyExc TaskName} {seg tr : SysTrace}

/-- STEP: at the back of the queue comes what is sent, from its front goes what is received. -/
theorem queue_step (hs : D.sys.Step s l s') :
    s'.world.queue ++ (takenBy l).toList = (queuedBy l).toList ++ s.world.queue := by
  cases hs with
  | spawn => exact List.append_nil _
  | drift hd =>
    show _ ++ [] = _
    rw [List.append_nil]
    exact queue_of_drift hd
  | @call i n o k r w' _ hsem =>
    have hother : w'.queue = s.world.queue → queuedBy (.call i o r : Label Op Ans PyExc TaskName) = none →
        takenBy (.call i o r : Label Op Ans PyExc TaskName) = none →
          w'.queue ++ (takenBy (.call i o r : Label Op Ans PyExc TaskName)).toList =
            (queuedBy (.call i o r : Label Op Ans PyExc TaskName)).toList ++ s.world.queue := by
      intro hq hs ht
      rw [hs, ht, hq]
      exact List.append_nil _
    cases r with
    | error e =>
      refine hother (by rw [show w' = s.world from hsem]) ?_ ?_ <;> cases o <;> rfl
    | ok a =>
      have hsem : Sem s.world o (.ok a) w' := hsem
      have hchange := queueChange_of_sem hsem
      cases o with
      | lpush m =>
        show w'.queue ++ [] = m :: s.world.queue
        rw [show w' = _ from hsem, List.append_nil]
      | brpop =>
        cases a with
        | none => exact hother (by rw [hsem.2]) rfl rfl
        | some m =>
          obtain ⟨q, hq, rfl⟩ := hsem
          exact hq.symm
      | _ =>
        cases hchange with
        | same hq => exact hother hq rfl rfl

/-- RUN: what was in the queue and what is sent comes out from its front, each message once, and the
    rest is still in it. -/
theorem queue_in_order (hp : D.sys.Path Anything s seg s') :
    s'.world.queue ++ received seg = sent seg ++ s.world.queue := by
  induction hp with
  | start => exact List.append_nil _
  | @step seg s₁ s₂ l hp hs _ ih =>
    have hstep := queue_step hs
    have hreceived : received ((s₁, l) :: seg) = (takenBy l).toList ++ received seg := by
      unfold received
      rw [List.filterMap_cons]
      cases takenBy l <;> rfl
    have hsent : sent ((s₁, l) :: seg) = (queuedBy l).toList ++ sent seg := by
      unfold sent
      rw [List.filterMap_cons]
      cases queuedBy l <;> rfl
    calc s₂.world.queue ++ received ((s₁, l) :: seg)
        = (s₂.world.queue ++ (takenBy l).toList) ++ received seg := by
          rw [hreceived, List.append_assoc]
      _ = (queuedBy l).toList ++ (s₁.world.queue ++ received seg) := by
          rw [hstep, List.append_assoc]
      _ = sent ((s₁, l) :: seg) ++ s.world.queue := by rw [ih, hsent, List.append_assoc]

/-- STEP: a vetted URL stays vetted. -/
theorem vetted_step {w₀ : World} (hr : D.sys.Run w₀ tr s) (hs : D.sys.Step s l s') {j : Uuid} {u : Str}
    (h : Vetted D s j u) : Vetted D s' j u := by
  cases hs with
  | call ht hsem => exact vetted_call hr ht hsem h
  | spawn ha => exact vetted_spawn ha h
  | drift hd => exact vetted_drift hd h

/-- What a step queues is in the queue after it. -/
theorem mem_queue_of_queuedBy (hs : D.sys.Step s l s') {m : Str} (hm : queuedBy l = some m) :
    m ∈ s'.world.queue := by
  have hstep := queue_step hs
  have hnone : takenBy l = none := by
    unfold queuedBy at hm
    split at hm
    · rfl
    · cases hm
  rw [hm, hnone] at hstep
  simp only [Option.toList_none, List.append_nil, Option.toList_some] at hstep
  rw [hstep]
  exact List.mem_cons_self

/-- RUN: every message that was sent is what `push_to_queue` makes of a job and its vetted URL. -/
theorem sent_vetted {w₀ : World} (hr : D.sys.Run w₀ tr s) (hempty : w₀.queue = []) :
    ∀ m ∈ sent tr, ∃ j u, m = message j (.str u) ∧ Vetted D s j u := by
  induction hr with
  | start => exact nofun
  | @step tr s s' l hr hs ih =>
    intro m hm
    unfold sent at hm
    rw [List.filterMap_cons] at hm
    have hold : m ∈ sent tr → ∃ j u, m = message j (.str u) ∧ Vetted D s' j u := by
      intro hm
      obtain ⟨j, u, he, hvet⟩ := ih m hm
      exact ⟨j, u, he, vetted_step hr hs hvet⟩
    cases hqueued : queuedBy l with
    | none =>
      rw [hqueued] at hm
      exact hold hm
    | some m' =>
      rw [hqueued] at hm
      rcases List.mem_cons.mp hm with rfl | hm
      · exact (chain_run (hr.step hs) hempty).queue m (mem_queue_of_queuedBy hs hqueued)
      · exact hold hm

/-- The message of a job and a URL. -/
def messageOf (c : Uuid × Str) : Str := message c.1 (.str c.2)

theorem messageOf_injective : Function.Injective messageOf := by
  intro c c' h
  have hread := congrArg decodeMessage h
  unfold messageOf at hread
  rw [decodeMessage_text, decodeMessage_text] at hread
  cases c
  cases c'
  cases hread
  rfl

/-- **Jobs are handed over in their order**: in every run from an empty queue the messages that were
    pushed are those of some jobs, each with the URL that passed the allowlist; the last of them are
    still in the queue, and those before them were handed over in this order, every message read back
    as the job and the URL it was pushed for. -/
theorem jobs_in_order {w₀ : World} (hr : D.sys.Run w₀ tr s) (hempty : w₀.queue = []) :
    ∃ waiting served : List (Uuid × Str),
      sent tr = (waiting ++ served).map messageOf ∧
      s.world.queue = waiting.map messageOf ∧
      (received tr).map decodeMessage = served.map (fun c => some (c.1, .str c.2)) ∧
      ∀ c ∈ waiting ++ served, Vetted D s c.1 c.2 := by
  have horder := queue_in_order (Sys.Run.path (G := Anything) hr fun _ _ _ _ => trivial)
  rw [show (State.world ⟨w₀, []⟩).queue = [] from hempty, List.append_nil] at horder
  have hvetted := sent_vetted hr hempty
  rw [← horder] at hvetted ⊢
  have hjobs : ∀ xs : List Str, (∀ m ∈ xs, ∃ j u, m = message j (.str u) ∧ Vetted D s j u) →
      ∃ cs : List (Uuid × Str), cs.map messageOf = xs := by
    intro xs hxs
    rw [← Set.mem_range, Set.range_list_map]
    intro m hm
    obtain ⟨j, u, he, -⟩ := hxs m hm
    exact ⟨(j, u), he.symm⟩
  obtain ⟨waiting, hwaiting⟩ := hjobs s.world.queue fun m hm => hvetted m (List.mem_append_left _ hm)
  obtain ⟨served, hserved⟩ := hjobs (received tr) fun m hm => hvetted m (List.mem_append_right _ hm)
  refine ⟨waiting, served, ?_, hwaiting.symm, ?_, fun c hc => ?_⟩
  · rw [List.map_append, hwaiting, hserved]
  · rw [← hserved, List.map_map]
    exact List.map_congr_left fun c _ => decodeMessage_text c.1 c.2
  · have hmem : messageOf c ∈ s.world.queue ++ received tr := by
      rw [← hwaiting, ← hserved, ← List.map_append]
      exact List.mem_map_of_mem hc
    obtain ⟨j, u, he, hvet⟩ := hvetted _ hmem
    cases messageOf_injective (show messageOf c = messageOf (j, u) from he)
    exact hvet

/-- A job is pushed, handed over, and pushed again after a failed download. -/
theorem jobs_in_order_requeued :
    ∃ waiting served : List (Uuid × Str),
      sent Sample.requeued.1 = (waiting ++ served).map messageOf ∧
      Sample.requeued.2.world.queue = waiting.map messageOf ∧
      (received Sample.requeued.1).map decodeMessage = served.map (fun c => some (c.1, .str c.2)) ∧
      ∀ c ∈ waiting ++ served, Vetted Sample.deployment Sample.requeued.2 c.1 c.2 :=
  jobs_in_order Sample.run_requeued rfl

end Order

/-! ## 2. Prices -/

/-- What the calls of a pass cost, what a granted token pays for them, and what is put aside for the
    model calls that it does not pay. -/
structure Quote where
  statement : Nat
  command : Nat
  request : Nat
  inference : Nat
  token : Nat
  attempt : Nat
  grant : Nat
  reserve : Nat

namespace Quote

def cost (q : Quote) : Op → Nat
  | .insertJob _ _ _ => q.statement
  | .updateJob _ _ => q.statement
  | .touchJob _ => q.statement
  | .selectJob _ => q.statement
  | .selectStale _ _ => q.statement
  | .deleteOld _ => q.statement
  | .lpush _ => q.command
  | .brpop => 0
  | .llen => q.command
  | .get _ => q.command
  | .setex _ _ _ => q.command
  | .hincrby _ _ => q.command
  | .expire _ _ => q.command
  | .request _ => q.request
  | .infer _ => q.inference
  | .acquire => q.token
  | .generateContent _ => q.attempt
  | .sleep _ => 0

/-- **What a message is worth**: six statements, five commands, a download with its redirects, an
    inference, a token and the reserve. -/
def message (q : Quote) : Nat :=
  6 * q.statement + 5 * q.command + (maxRedirects + 1) * q.request + q.inference + q.token + q.reserve

def prices (q : Quote) : Prices Op Ans PyExc where
  cost := q.cost
  pay
    | .brpop, .ok (some _) => q.message
    | .acquire, .ok true => q.grant
    | _, _ => 0

/-- A token and the reserve pay for all attempts of an extraction. -/
def Covers (q : Quote) (cfg : Settings) : Prop :=
  (cfg.geminiBackoffsSeconds.length + 1) * q.attempt ≤ q.grant + q.reserve

end Quote

/-! ## 3. Stages -/

section Stages

variable {q : Quote} {wk : Worker} {j : Uuid} {v : Json} {c : Nat} {α : Type}

/-- A call whose exceptions are mapped. -/
theorem afford_mapped {o : Op} (h : q.cost o ≤ c) (f : PyExc → PyExc) :
    Affords q.prices c ((await o).tryCatch fun e => .raise (f e) : Py (Ans o)) :=
  affords_tryElse_free (affords_await h) (fun _ => trivial) fun _ => trivial

/-- Some exceptions are suppressed. -/
theorem afford_suppress {p : Py α} (h : Affords q.prices c p) (f : PyExc → Bool) (a : α) :
    Affords q.prices c (p.tryCatch fun e => if f e then .ret a else .raise e) := by
  refine affords_tryElse_free h (fun _ => trivial) fun e => ?_
  split <;> exact trivial

theorem afford_update (set : JobSet) : Affords q.prices q.statement (updateJobStatus j set) :=
  afford_mapped (o := .updateJob _ _) (Nat.le_refl _) _

theorem afford_fail (isPermanent : Bool) (code msg : Str) :
    Affords q.prices q.statement (fail j isPermanent code msg) :=
  affords_tryElse_free (afford_update _) (fun _ => trivial) fun _ => trivial

theorem afford_yield : Affords q.prices (q.statement + q.command) (yieldToQueue j v) :=
  affords_bind (afford_mapped (o := .touchJob _) (Nat.le_refl _) _) fun _ =>
    afford_mapped (o := .lpush _) (Nat.le_refl _) _

theorem afford_bump : Affords q.prices (2 * q.command) (bumpRequeueCounter wk.cfg j) := by
  have hexpire : ∀ count : Nat, Affords q.prices q.command
      (do if count = 1 then await (.expire (requeueKey j) wk.cfg.redisRequeueTtlSeconds)
          return count : Py Nat) := by
    intro count
    split
    · exact affords_tryElse_free (affords_await (Nat.le_refl _)) (fun _ => trivial) fun _ => trivial
    · exact trivial
  have hcommands : Affords q.prices (q.command + q.command) (do
      let count ← await (.hincrby (requeueKey j) requeueField)
      if count = 1 then await (.expire (requeueKey j) wk.cfg.redisRequeueTtlSeconds)
      return count : Py Nat) :=
    affords_bind (affords_await (Nat.le_refl _)) hexpire
  rw [Nat.two_mul]
  exact affords_tryElse_free hcommands (fun _ => trivial) fun _ => trivial

/-- A bump that fails hands the job back, or fails it. -/
theorem afford_bumpOrOrphan :
    Affords q.prices (2 * q.command + (q.statement + q.command)) (bumpOrOrphan wk.cfg j v) := by
  refine affords_tryElse afford_bump (fun count => ?_) fun e => ?_
  · split
    · exact .more (affords_tryElse_free (afford_fail _ _ _) (fun _ => trivial) fun _ => trivial)
        (Nat.le_add_right _ _)
    · exact trivial
  · split
    · exact affords_tryElse_free afford_yield (fun _ => trivial) fun _ => trivial
    · exact trivial

/-- A counted failure: the counter, and the job goes back. -/
theorem afford_requeue :
    Affords q.prices (2 * q.statement + 4 * q.command) (requeueCounted wk.cfg j v) := by
  refine .more (affords_bind (b := q.statement + q.command) afford_bumpOrOrphan fun count => ?_)
    (by omega)
  cases count with
  | none => exact trivial
  | some _ => exact afford_yield

theorem afford_handler (e : PyExc) : Affords q.prices q.statement (lifecycleHandler j e) := by
  unfold lifecycleHandler
  split
  · exact afford_fail _ _ _
  · exact affords_tryElse_free (afford_fail _ _ _) (fun _ => trivial) fun _ => trivial

theorem afford_persist (final : InvoiceResult) :
    Affords q.prices (2 * q.statement + q.command) (persist j v final) := by
  refine .more (affords_tryElse (b := q.statement + q.command) (afford_update _) (fun _ => trivial)
    fun e => ?_) (by omega)
  split
  · exact afford_yield
  · exact trivial

theorem afford_finish (raw : InvoiceResult) :
    Affords q.prices (2 * q.statement + q.command) (finish wk j v raw) :=
  .more (affords_bind (a := 0) (affords_ofExcept _) fun final => afford_persist final) (by omega)

/-- **The attempts of an extraction**, one model call each. -/
theorem afford_attempts (backoffs : List Rat) (req : GenerateRequest) (attempts : List Nat) :
    ∀ last, Affords q.prices (attempts.length * q.attempt)
      (extractAttempts backoffs req attempts last) := by
  induction attempts with
  | nil => exact fun _ => trivial
  | cons attempt rest ih =>
    intro last
    have hagain : ∀ e : PyExc, Affords q.prices (rest.length * q.attempt)
        (backOff backoffs e attempt (extractAttempts backoffs req rest e.str)) := by
      intro e
      unfold backOff
      split
      · exact .more (affords_bind (a := 0) (affords_await (Nat.le_refl _)) fun _ => ih _) (by omega)
      · exact trivial
    refine .more (affords_tryElse (a := q.attempt) (b := rest.length * q.attempt)
      (affords_await (Nat.le_refl _)) (fun text => affords_ofExcept _) fun e => ?_) ?_
    · split
      · split <;> exact trivial
      · exact hagain _
      · exact hagain _
      · exact trivial
    · rw [List.length_cons, Nat.succ_mul, Nat.add_comm]

/-- A token and the reserve pay for the attempts. -/
theorem afford_extractInvoice (hb : q.Covers wk.cfg) (crop : Image) :
    Affords q.prices (q.grant + q.reserve) (extractInvoice wk.cfg wk.lib crop) := by
  have hcovers : (wk.cfg.geminiBackoffsSeconds.length + 1) * q.attempt ≤ q.grant + q.reserve := hb
  have hlen : (List.range (wk.cfg.geminiBackoffsSeconds.length + 1)).length =
      wk.cfg.geminiBackoffsSeconds.length + 1 := List.length_range
  refine .more (affords_bind (a := 0) (affords_ofExcept _) fun _ => affords_bind (a := 0)
    (affords_ofExcept _) fun _ => affords_bind (a := 0) (affords_ofExcept _) fun _ =>
      afford_attempts _ _ _ _) ?_
  rw [hlen]
  omega

theorem afford_extract (hb : q.Covers wk.cfg) (phash : Str) (crop : Image) :
    Affords q.prices (q.grant + q.reserve + (2 * q.statement + 4 * q.command))
      (extractStage wk j v phash crop) := by
  refine affords_tryElse (afford_extractInvoice hb crop) (fun raw => ?_) fun e => ?_
  · have hset : Affords q.prices q.command (setPhashCache wk.cfg phash raw.modelDump) :=
      afford_mapped (o := .setex _ _ _) (Nat.le_refl _) _
    exact .more (affords_bind (afford_suppress hset _ _) fun _ => afford_finish raw) (by omega)
  · split
    · exact .more afford_yield (by omega)
    · split
      · exact afford_requeue
      · split
        · exact .more (afford_fail _ _ _) (by omega)
        · exact trivial

/-- What follows the cache: an inference, a token, what the token does not pay. -/
def Quote.rest (q : Quote) : Nat :=
  q.inference + q.token + q.reserve + (2 * q.statement + 4 * q.command)

/-- A granted token pays its share of the extraction. -/
theorem afford_acquire (hb : q.Covers wk.cfg) (phash : Str) (crop : Image) :
    Affords q.prices (q.token + q.reserve + (2 * q.statement + 4 * q.command))
      (acquireStage wk j v phash crop) := by
  unfold acquireStage
  refine affords_call (o := Op.acquire) (h := Proc.raise) ?_ (fun granted => ?_) fun _ => trivial
  · show q.token ≤ _
    omega
  · cases granted with
    | false =>
      refine .more afford_yield ?_
      show _ ≤ q.token + q.reserve + (2 * q.statement + 4 * q.command) - q.token + 0
      omega
    | true =>
      refine .more (afford_extract hb phash crop) ?_
      show _ ≤ q.token + q.reserve + (2 * q.statement + 4 * q.command) - q.token + q.grant
      omega

theorem afford_detectInvoice (img : Image) :
    Affords q.prices q.inference (detectInvoice wk.cfg wk.lib img) := by
  have hinfer : ∀ batch, Affords q.prices q.inference (inferYolo batch) := fun batch =>
    affords_tryElse_free (afford_mapped (o := .infer _) (Nat.le_refl _) _)
      (fun resp => affords_ofExcept resp) fun _ => trivial
  refine .more (affords_bind (a := 0) (affords_ofExcept _) fun lb =>
    affords_tryElse_free (hinfer _) (fun out => ?_) fun _ => trivial) (Nat.le_of_eq (Nat.zero_add _))
  cases out with
  | some out => exact affords_ofExcept _
  | none => exact trivial

theorem afford_detect (hb : q.Covers wk.cfg) (pp : PreprocessResult) :
    Affords q.prices q.rest (detectStage wk j v pp) := by
  refine .more (affords_tryElse (afford_detectInvoice pp.pil)
    (fun crop => afford_acquire hb pp.phash crop) fun e => ?_)
    (by unfold Quote.rest; omega)
  split
  · exact .more (afford_fail _ _ _) (by omega)
  · split
    · exact .more afford_requeue (by omega)
    · exact trivial

theorem afford_cache (hb : q.Covers wk.cfg) (pp : PreprocessResult) :
    Affords q.prices (q.command + q.rest) (cacheStage wk j v pp) := by
  have hget : Affords q.prices q.command (getPhashCache wk.cfg pp.phash) :=
    affords_tryElse_free (afford_mapped (o := .get _) (Nat.le_refl _) _)
      (fun x => by cases x <;> exact trivial) fun _ => trivial
  refine affords_bind (afford_suppress hget _ _) fun cachedRaw => ?_
  split
  · exact .more (afford_finish _) (by unfold Quote.rest; omega)
  · exact afford_detect hb pp

theorem afford_phash (hb : q.Covers wk.cfg) (record : JobRow) (pp : PreprocessResult) :
    Affords q.prices (q.statement + (q.command + q.rest)) (phashStage wk j v record pp) := by
  unfold phashStage
  split
  · exact affords_bind (afford_suppress (afford_update _) _ _) fun _ => afford_cache hb pp
  · exact .more (afford_cache hb pp) (Nat.le_add_left _ _)

theorem afford_preprocess (hb : q.Covers wk.cfg) (record : JobRow) (raw : Bytes) :
    Affords q.prices (q.statement + (q.command + q.rest)) (preprocessStage wk j v record raw) := by
  refine .more (affords_tryElse (a := 0) (affords_ofExcept _) (fun pp => afford_phash hb record pp)
    fun e => ?_) (Nat.le_of_eq (Nat.zero_add _))
  split
  · exact .more (afford_fail _ _ _) (Nat.le_add_right _ _)
  · exact trivial

/-- A request, and one more for each redirect. -/
theorem afford_httpxGet (fuel : Nat) :
    ∀ url : Str, Affords q.prices ((fuel + 1) * q.request) (httpxGet wk.lib fuel url) := by
  induction fuel with
  | zero =>
    intro url
    unfold httpxGet
    refine .more (affords_tryElse_free (affords_await (Nat.le_refl _)) (fun resp => ?_)
      fun _ => trivial) (Nat.le_of_eq (Nat.one_mul _).symm)
    cases resp.redirect? <;> exact trivial
  | succ fuel ih =>
    intro url
    unfold httpxGet
    refine .more (affords_bind (a := q.request) (b := (fuel + 1) * q.request)
      (affords_await (Nat.le_refl _)) fun resp => ?_) ?_
    · cases resp.redirect? with
      | none => exact trivial
      | some location =>
        exact .more (affords_bind (a := 0) (affords_ofExcept _) fun next => ih next)
          (Nat.le_of_eq (Nat.zero_add _))
    · rw [Nat.succ_mul (fuel + 1), Nat.add_comm]

theorem afford_downloadImage :
    Affords q.prices ((maxRedirects + 1) * q.request) (downloadImage wk.cfg wk.lib v) := by
  cases v with
  | str url =>
    exact affords_tryElse_free (affords_tryElse_free (afford_httpxGet _ _)
      (fun _ => affords_ofExcept _) fun _ => trivial) (fun _ => trivial) fun _ => trivial
  | _ => exact trivial

theorem afford_download (hb : q.Covers wk.cfg) (record : JobRow) :
    Affords q.prices ((maxRedirects + 1) * q.request + (q.statement + (q.command + q.rest)))
      (downloadStage wk j v record) := by
  refine affords_tryElse afford_downloadImage (fun raw => afford_preprocess hb record raw) fun e => ?_
  split
  · exact .more (afford_fail _ _ _) (Nat.le_add_right _ _)
  · split
    · exact .more afford_requeue (by unfold Quote.rest; omega)
    · exact trivial

theorem afford_mark (hb : q.Covers wk.cfg) (record : JobRow) :
    Affords q.prices (q.statement +
      ((maxRedirects + 1) * q.request + (q.statement + (q.command + q.rest))))
      (markStage wk j v record) := by
  refine affords_tryElse (afford_update _) (fun _ => afford_download hb record) fun e => ?_
  split
  · exact .more afford_yield (by omega)
  · exact trivial

theorem afford_body (hb : q.Covers wk.cfg) :
    Affords q.prices (q.statement + (q.statement +
      ((maxRedirects + 1) * q.request + (q.statement + (q.command + q.rest)))))
      (lifecycleBody wk j v) := by
  refine affords_tryElse (afford_mapped (o := .selectJob _) (Nat.le_refl _) _) (fun x => ?_) fun e => ?_
  · cases x with
    | none => exact trivial
    | some record =>
      dsimp only
      split
      · exact trivial
      · exact afford_mark hb record
  · split
    · exact .more afford_yield (by omega)
    · exact trivial

/-- What is popped has paid. -/
theorem afford_pop : wp q.prices.purse (fun x c => ∀ m, x = .ok (some m) → q.message ≤ c)
    (popFromQueue jsonDepth) 0 := by
  refine (wp_tryElse _ _ _ _).mpr ((wp_await _ _).mpr ⟨Nat.le_refl 0, fun r _ => ?_⟩)
  cases r with
  | error e =>
    simp only [branch_error]
    split
    · exact fun m hm => (by cases hm)
    · split <;> exact fun m hm => (by cases hm)
  | ok val =>
    cases val with
    | none => exact fun m hm => (by cases hm)
    | some val =>
      show wp _ _ (loadsWithin jsonDepth val) _
      cases hdeep : tooDeep jsonDepth val with
      | some container =>
        rw [loadsWithin_tooDeep hdeep]
        exact fun m hm => (by cases hm)
      | none =>
        rw [loadsWithin_flat hdeep]
        exact fun m _ => Nat.le_add_left q.message (0 - 0)

/-- **A message pays for its pass**, whatever the services answer. -/
theorem afford_iteration (hb : q.Covers wk.cfg) :
    Affords q.prices 0 (workerIteration jsonDepth (executeTaskLifecycle wk)) := by
  have hlifecycle : ∀ j v, Affords q.prices q.message (executeTaskLifecycle wk j v) := fun j v =>
    .more (affords_tryElse (b := q.statement) (afford_body hb) (fun _ => trivial) afford_handler)
      (by unfold Quote.message Quote.rest; omega)
  refine wp_bind_of afford_pop (fun msg c hc => ?_) fun _ _ _ => trivial
  cases msg with
  | none => exact trivial
  | some msg =>
    have hpass : Affords q.prices q.message (Proc.tryCatch
        ((Proc.ofExcept (readMessage msg)).bind fun m => executeTaskLifecycle wk m.1 m.2)
        fun _ => .ret () : Py Unit) :=
      affords_tryElse_free (.more (affords_bind (a := 0) (affords_ofExcept _) fun m =>
        hlifecycle m.1 m.2) (Nat.le_of_eq (Nat.zero_add _))) (fun _ => trivial) fun _ => trivial
    exact hpass.more (hc msg rfl)

end Stages

/-! ## 4. Runs -/

/-- A pass of a worker process in `P`. -/
def passOf (P : Nat → Bool) : TaskName → Bool
  | .worker p => P p
  | _ => false

/-- A pass of a process in `P` took a message off the queue. -/
def isTaken (P : Nat → Bool) (e : SysState × Label Op Ans PyExc TaskName) : Bool :=
  match e.2 with
  | .call i .brpop (.ok (some _)) => ofKind (passOf P) e.1 i
  | _ => false

/-- It was granted a token. -/
def isGranted (P : Nat → Bool) (e : SysState × Label Op Ans PyExc TaskName) : Bool :=
  match e.2 with
  | .call i .acquire (.ok true) => ofKind (passOf P) e.1 i
  | _ => false

section Runs

variable {D : Deployment} {w₀ : World} {tr : SysTrace} {s : SysState} {q : Quote} {P : Nat → Bool}

/-- Every pass starts with nothing. -/
theorem afford_boot (hq : q.Covers D.cfg) (n : TaskName) (hn : passOf P n = true) :
    Affords q.prices 0 (D.boot n) := by
  cases n with
  | worker p =>
    have hworker : q.Covers (D.worker p).cfg := hq
    exact afford_iteration hworker
  | submit j u => cases hn
  | sweep => cases hn
  | purge => cases hn

/-- STEP: only a message that was taken and a token that was granted pay. -/
theorem paid_step (e : SysState × Label Op Ans PyExc TaskName) :
    paid q.prices (passOf P) e =
      (isTaken P e).toNat * q.message + (isGranted P e).toNat * q.grant := by
  obtain ⟨s, l⟩ := e
  have hnone : 0 = false.toNat * q.message + false.toNat * q.grant := by simp
  cases l with
  | spawn n => exact hnone
  | drift => exact hnone
  | call i o r =>
    have hother : q.prices.pay o r = 0 → isTaken P (s, .call i o r) = false →
        isGranted P (s, .call i o r) = false → (if ofKind (passOf P) s i then q.prices.pay o r else 0) =
          (isTaken P (s, .call i o r)).toNat * q.message +
            (isGranted P (s, .call i o r)).toNat * q.grant := by
      intro hpay htaken hgranted
      rw [hpay, htaken, hgranted]
      simp
    cases o with
    | brpop =>
      rcases r with e | _ | m
      · exact hother rfl rfl rfl
      · exact hother rfl rfl rfl
      · show (if ofKind (passOf P) s i then q.message else 0) =
          (ofKind (passOf P) s i).toNat * q.message + false.toNat * q.grant
        cases ofKind (passOf P) s i <;> simp
    | acquire =>
      rcases r with e | _ | _
      · exact hother rfl rfl rfl
      · exact hother rfl rfl rfl
      · show (if ofKind (passOf P) s i then q.grant else 0) =
          false.toNat * q.message + (ofKind (passOf P) s i).toNat * q.grant
        cases ofKind (passOf P) s i <;> simp
    | _ => exact hother rfl rfl rfl

theorem paid_eq : tally (paid q.prices (passOf P)) tr =
    tr.countP (isTaken P) * q.message + tr.countP (isGranted P) * q.grant := by
  induction tr with
  | nil => simp [tally]
  | cons e tr ih =>
    rw [tally_cons, ih, paid_step, List.countP_cons, List.countP_cons]
    cases isTaken P e <;> cases isGranted P e <;> simp [Nat.add_mul] <;> omega

/-- RUN: the passes cost no more than their messages and tokens are worth, at whatever prices. -/
theorem costs_paid (h : D.sys.Run w₀ tr s) (hq : q.Covers D.cfg) :
    tally (charged q.prices (passOf P)) tr + tally (due q.prices (passOf P)) s.tasks ≤
      tr.countP (isTaken P) * q.message + tr.countP (isGranted P) * q.grant := by
  rw [← paid_eq]
  exact h.account_rule fun n hn => afford_boot hq n hn

end Runs

/-! ## 5. Calls per message -/

/-- What a pass calls, once it has a message. -/
inductive Service where
  | postgres
  | redis
  | cdn
  | triton
  | bucket
  | gemini
  deriving DecidableEq

/-- Prices of 1 for the calls to a service, 0 for all others. -/
def Service.quote (n : Nat) : Service → Quote
  | .postgres => ⟨1, 0, 0, 0, 0, 0, 0, 0⟩
  | .redis => ⟨0, 1, 0, 0, 0, 0, 0, 0⟩
  | .cdn => ⟨0, 0, 1, 0, 0, 0, 0, 0⟩
  | .triton => ⟨0, 0, 0, 1, 0, 0, 0, 0⟩
  | .bucket => ⟨0, 0, 0, 0, 1, 0, 0, 0⟩
  | .gemini => ⟨0, 0, 0, 0, 0, 1, 0, n⟩

/-- The calls to a service that a message can lead to. -/
def perMessage (cfg : Settings) : Service → Nat
  | .postgres => 6
  | .redis => 5
  | .cdn => maxRedirects + 1
  | .triton => 1
  | .bucket => 1
  | .gemini => cfg.geminiBackoffsSeconds.length + 1

/-- The service a call goes to; `BRPOP` and the waits between attempts go to none. -/
def Op.service? : Op → Option Service
  | .insertJob _ _ _ => some .postgres
  | .updateJob _ _ => some .postgres
  | .touchJob _ => some .postgres
  | .selectJob _ => some .postgres
  | .selectStale _ _ => some .postgres
  | .deleteOld _ => some .postgres
  | .lpush _ => some .redis
  | .brpop => none
  | .llen => some .redis
  | .get _ => some .redis
  | .setex _ _ _ => some .redis
  | .hincrby _ _ => some .redis
  | .expire _ _ => some .redis
  | .request _ => some .cdn
  | .infer _ => some .triton
  | .acquire => some .bucket
  | .generateContent _ => some .gemini
  | .sleep _ => none

/-- A call of a pass in `P` to the service ended. -/
def isServed (P : Nat → Bool) (v : Service) (e : SysState × Label Op Ans PyExc TaskName) : Bool :=
  match e.2 with
  | .call i o _ => ofKind (passOf P) e.1 i && o.service? == some v
  | _ => false

/-- A pass in `P` has a call to the service under way. -/
def isWaiting (P : Nat → Bool) (v : Service) (t : Task Op Ans PyExc TaskName) : Bool :=
  match t.rest with
  | .call o _ => passOf P t.name && o.service? == some v
  | _ => false

/-- The calls to the service that the passes of the processes in `P` have made. -/
def calls (P : Nat → Bool) (v : Service) (tr : SysTrace) (s : SysState) : Nat :=
  tr.countP (isServed P v) + s.tasks.countP (isWaiting P v)

theorem tally_eq_countP {σ : Type} {f : σ → Nat} {c : σ → Bool} {xs : List σ}
    (h : ∀ x, f x = (c x).toNat) : tally f xs = xs.countP c := by
  induction xs with
  | nil => rfl
  | cons x xs ih =>
    rw [tally_cons, ih, h, List.countP_cons]
    cases c x <;> simp [Nat.add_comm]

theorem cost_quote (n : Nat) (v : Service) (o : Op) :
    (v.quote n).cost o = (o.service? == some v).toNat := by
  cases v <;> cases o <;> rfl

section Calls

variable {D : Deployment} {w₀ : World} {tr : SysTrace} {s : SysState}

/-- At the prices of a service the costs are the calls to it. -/
theorem calls_eq (n : Nat) (P : Nat → Bool) (v : Service) {q : Quote}
    (hq : ∀ o, q.cost o = (v.quote n).cost o) :
    tally (charged q.prices (passOf P)) tr + tally (due q.prices (passOf P)) s.tasks =
      calls P v tr s := by
  have hcost : ∀ o, q.prices.cost o = (o.service? == some v).toNat := fun o =>
    (hq o).trans (cost_quote n v o)
  have hcharged : ∀ e, charged q.prices (passOf P) e = (isServed P v e).toNat := by
    rintro ⟨s, l⟩
    cases l with
    | spawn n => rfl
    | drift => rfl
    | call i o r =>
      show (if ofKind (passOf P) s i then q.prices.cost o else 0) =
        (ofKind (passOf P) s i && o.service? == some v).toNat
      rw [hcost]
      cases ofKind (passOf P) s i <;> rfl
  have hdue : ∀ t, due q.prices (passOf P) t = (isWaiting P v t).toNat := by
    rintro ⟨n, rest⟩
    cases rest with
    | ret x => rfl
    | raise e => rfl
    | call o k =>
      show (if passOf P n then q.prices.cost o else 0) = (passOf P n && o.service? == some v).toNat
      rw [hcost]
      cases passOf P n <;> rfl
  rw [tally_eq_countP hcharged, tally_eq_countP hdue]
  rfl

theorem message_quote (cfg : Settings) (v : Service) :
    (v.quote (cfg.geminiBackoffsSeconds.length + 1)).message = perMessage cfg v := by
  cases v <;> simp [Quote.message, Service.quote, perMessage]

/-- **Calls per message**: for every message that was taken there are at most six statements, five
    commands, one download with its redirects, one inference, one token and one model call for each
    attempt, whatever is answered and in which order. -/
theorem messages_pay (h : D.sys.Run w₀ tr s) (P : Nat → Bool) (v : Service) :
    calls P v tr s ≤ perMessage D.cfg v * tr.countP (isTaken P) := by
  have hcovers : (v.quote (D.cfg.geminiBackoffsSeconds.length + 1)).Covers D.cfg := by
    cases v <;> simp [Quote.Covers, Service.quote]
  have hgrant : (v.quote (D.cfg.geminiBackoffsSeconds.length + 1)).grant = 0 := by
    cases v <;> rfl
  have hpaid := costs_paid (P := P) h hcovers
  rw [calls_eq _ P v fun _ => rfl, message_quote, hgrant] at hpaid
  rw [Nat.mul_comm]
  simpa using hpaid

/-- The retried extraction: one message, one inference, one token, two attempts. -/
theorem messages_pay_retried :
    calls (fun _ => true) .triton Sample.retriedRun.1 Sample.retriedRun.2 = 1 ∧
      calls (fun _ => true) .gemini Sample.retriedRun.1 Sample.retriedRun.2 = 2 ∧
      calls (fun _ => true) .gemini Sample.retriedRun.1 Sample.retriedRun.2 ≤
        perMessage Sample.caching.cfg .gemini * Sample.retriedRun.1.countP (isTaken fun _ => true) := by
  have hbound := messages_pay Sample.run_retriedRun (fun _ => true) .gemini
  exact ⟨by decide +kernel, by decide +kernel, hbound⟩

/-- **Model calls per token**: a token pays for the first attempt of an extraction and its retries. -/
theorem tokens_pay (h : D.sys.Run w₀ tr s) (P : Nat → Bool) :
    calls P .gemini tr s ≤ (D.cfg.geminiBackoffsSeconds.length + 1) * tr.countP (isGranted P) := by
  let q : Quote := ⟨0, 0, 0, 0, 0, 1, D.cfg.geminiBackoffsSeconds.length + 1, 0⟩
  have hcovers : q.Covers D.cfg := by simp [q, Quote.Covers]
  have hpaid := costs_paid (P := P) h hcovers
  have hcost : ∀ o, q.cost o = (Service.gemini.quote 0).cost o := fun o => by cases o <;> rfl
  rw [calls_eq 0 P .gemini hcost] at hpaid
  simpa [q, Quote.message, Nat.mul_comm] using hpaid

/-- One token, two attempts, within its worth. -/
theorem tokens_pay_retried :
    Sample.retriedRun.1.countP (isGranted fun _ => true) = 1 ∧
      calls (fun _ => true) .gemini Sample.retriedRun.1 Sample.retriedRun.2 ≤
        (Sample.caching.cfg.geminiBackoffsSeconds.length + 1) *
          Sample.retriedRun.1.countP (isGranted fun _ => true) := by
  have hbound := tokens_pay Sample.run_retriedRun fun _ => true
  exact ⟨by decide +kernel, hbound⟩

end Calls

end InvoiceOcr
