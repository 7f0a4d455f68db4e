/-
  File:      InvoiceOcr/Poison.lean
  Subject:   POISON MESSAGES. Runs of one job, one after the other, in an environment that answers
             alike at every attempt.

  * `Steady` -- such an environment: Postgres has a verdict on what a write sets, Redis is up, the
    token bucket grants, the stages come out the same; `Steady.after` -- the world after `n` runs;
  * `Fate` -- how a run ends; `Ends` -- what a stage leaves inside the catch-all handlers, one lemma per
    stage; `run_marked` -- every run past the PROCESSING mark ends as the fate of the job has it;
  * `pending_run`, `accounts_run` -- STEP: a run does not close the job, or closes it or is counted;
  * **`poison_terminates_iff`** -- after `REQUEUE_MAX + 1` runs the job is done, if and only if
    Postgres accepts the PROCESSING mark and the write the job closes with;
  * `poison_loops` -- an extraction with a NUL character.
-/
import Mathlib.Data.List.Infix
import InvoiceOcr.Transparency

namespace InvoiceOcr

open PyJson Async

/-! ## 1. A steady environment -/

/-- **What answers alike at every attempt.** -/
structure Steady (σ : Type) where
  /-- The exception Postgres raises on what a write sets, if it does. -/
  verdict : JobSet → Option PyExc
  verdict_pg : ∀ {set e}, verdict set = some e → e.isPgError = true
  /-- CDN, Triton, Gemini, token bucket and the waits. -/
  serve : σ → (o : Op) → Except PyExc (Ans o) × σ
  serve_acquire : ∀ s, (serve s .acquire).1 = .ok true
  /-- The time between a run and the next. -/
  pause : Nat → Nat

/-- What the stages come out with. -/
structure Outcomes where
  download : Except PyExc Bytes
  detect : Image → Except PyExc Image
  extract : Image → Except PyExc InvoiceResult

/-- A write of a success has a result. -/
def JobSet.Sound (set : JobSet) : Prop := set.status = .succeeded → set.result.isSome = true

/-- The row of the job, not terminal. -/
def Open (j : Uuid) (w : World) : Prop :=
  ∃ row, w.jobs.find j = some row ∧ row.status.isTerminal = false

/-- The row of the job, terminal. -/
def Closed (j : Uuid) (w : World) : Prop :=
  ∃ row, w.jobs.find j = some row ∧ row.status.isTerminal = true

/-- The row is terminal and no message of the job is queued. -/
def Terminated (j : Uuid) (w : World) : Prop := Closed j w ∧ w.queue.countP (isMessageOf j) = 0

/-- `UPDATE jobs SET …`. -/
def World.write (w : World) (j : Uuid) (set : JobSet) : World :=
  { w with jobs := (w.jobs.modify j (set.apply w.now)).getD w.jobs }

/-- What `_yield_to_queue` leaves. -/
def World.handBack (w : World) (j : Uuid) (imageUrl : Json) : World :=
  { w with
    jobs := (w.jobs.modify j (touchRow w.now)).getD w.jobs
    queue := message j imageUrl :: w.queue }

/-- The count of the job. -/
def World.requeues (w : World) (j : Uuid) : Nat := w.counter (requeueKey j) requeueField

/-- What `bump_requeue_counter` leaves. -/
def World.countUp (w : World) (j : Uuid) : World :=
  if w.requeues j + 1 = 1 then (w.bump (requeueKey j) requeueField).setExpiry (requeueKey j)
  else w.bump (requeueKey j) requeueField

/-- `SETEX`. -/
def World.cache (w : World) (key value : Str) : World :=
  { w with strings := fun k => if k = key then some value else w.strings k }

/-- The oldest message of the job is popped. -/
def takeMessage (j : Uuid) (queue : List Str) : List Str :=
  (queue.reverse.eraseP (isMessageOf j)).reverse

/-- After a while, with the message of the job in hand. -/
def World.taken (w : World) (j : Uuid) (d : Nat) : World :=
  { w with now := w.now + d, queue := takeMessage j w.queue }

namespace Steady

variable {σ : Type} (E : Steady σ)

/-- The refusal of a call. -/
def refusal : Op → Option PyExc
  | .updateJob _ set => E.verdict set
  | _ => none

/-- The environment answers a call. -/
def handle (st : World × σ) (o : Op) : Except PyExc (Ans o) × (World × σ) :=
  match E.refusal o with
  | some e => (.error e, st)
  | none =>
    match st.1.act o with
    | some (a, w') => (.ok a, w', st.2)
    | none =>
      if o.isStage then ((E.serve st.2 o).1, st.1, (E.serve st.2 o).2)
      else (.error (.postgresError []), st)

/-- A write, as far as it is accepted. -/
def put (w : World) (j : Uuid) (set : JobSet) : World :=
  match E.verdict set with
  | none => w.write j set
  | some _ => w

/-- One run of the job, its message in hand. -/
def run (wk : Worker) (j : Uuid) (imageUrl : Json) (st : World × σ) : World × σ :=
  ((executeTaskLifecycle wk j imageUrl).interp E.handle st).2

/-- **The world after `n` runs.** -/
def after (wk : Worker) (j : Uuid) (imageUrl : Json) : Nat → World × σ → World × σ
  | 0, st => st
  | n + 1, st =>
    let (w, s) := after wk j imageUrl n st
    E.run wk j imageUrl (w.taken j (E.pause n), s)

/-- The stages come out the same at every attempt, and Gemini does not answer 429. -/
structure Fixed (wk : Worker) (imageUrl : Json) (x : Outcomes) : Prop where
  download : ∀ st, ((downloadImage wk.cfg wk.lib imageUrl).interp E.handle st).1 = x.download
  detect : ∀ img st, ((detectInvoice wk.cfg wk.lib img).interp E.handle st).1 = x.detect img
  extract : ∀ crop st, ((extractInvoice wk.cfg wk.lib crop).interp E.handle st).1 = x.extract crop
  not_limited : ∀ crop e, x.extract crop = .error e → e.isRateLimitedLocallyError = false

end Steady

/-! ## 2. Storage calls -/

section Calls

variable {σ : Type} {E : Steady σ} {w : World} {s : σ} {j : Uuid} {set : JobSet} {v : Json}

theorem JobSet.IsMark.sound (h : set.IsMark) : set.Sound := by
  intro hs
  rw [h.status] at hs
  simp at hs

theorem JobSet.IsFailure.sound (h : set.IsFailure) : set.Sound := by
  intro hs
  have hfailed := h.status
  rw [hs] at hfailed
  cases hfailed

theorem modify_sound (h : set.Sound) : ∃ t, w.jobs.modify j (set.apply w.now) = some t := by
  refine Relational.Table.modify_of_check fun r hr => ⟨fun hs => ?_, hr.2⟩
  have hsome := h hs
  show (set.result.or r.result).isSome = true
  rw [Option.isSome_or, hsome]
  rfl

theorem find_write (h : set.Sound) :
    (w.write j set).jobs.find j = (w.jobs.find j).map (set.apply w.now).run := by
  obtain ⟨t, ht⟩ := @modify_sound w j set h
  unfold World.write
  rw [ht]
  exact (Relational.Table.find_modify ht j).trans (if_pos rfl)

theorem modify_touch : ∃ t, w.jobs.modify j (touchRow w.now) = some t :=
  Relational.Table.modify_of_check fun _ hr => hr

theorem find_handBack :
    (w.handBack j v).jobs.find j = (w.jobs.find j).map (touchRow w.now).run := by
  obtain ⟨t, ht⟩ := @modify_touch w j
  unfold World.handBack
  rw [ht]
  exact (Relational.Table.find_modify ht j).trans (if_pos rfl)

theorem handle_update (h : set.Sound) : E.handle (w, s) (.updateJob j set) =
    (match E.verdict set with | none => .ok () | some e => .error e, E.put w j set, s) := by
  obtain ⟨t, ht⟩ := @modify_sound w j set h
  unfold Steady.handle Steady.put World.write
  cases hv : E.verdict set with
  | some e => simp only [Steady.refusal, hv]
  | none => simp only [Steady.refusal, hv, World.act, ht, Option.map_some, Option.getD_some]

/-- `update_job_status`: a refusal is an unavailable database. -/
theorem interp_update (h : set.Sound) : (updateJobStatus j set).interp E.handle (w, s) =
    (match E.verdict set with | none => .ok () | some e => .error (.databaseUnavailable e.str),
      E.put w j set, s) := by
  unfold updateJobStatus wrapPgErrors
  rw [interp_tryCatch, interp_await, handle_update h]
  cases hv : E.verdict set with
  | none => rfl
  | some e => simp only [E.verdict_pg hv, if_true, interp_raise]

/-- `_fail` returns, whatever Postgres says. -/
theorem interp_fail (isPermanent : Bool) (code msg : Str) :
    (fail j isPermanent code msg).interp E.handle (w, s) =
      (.ok (), E.put w j (failSet isPermanent code msg), s) := by
  unfold fail
  rw [interp_tryCatch, interp_update (isFailure_failSet isPermanent code msg).sound]
  cases E.verdict (failSet isPermanent code msg) with
  | none => rfl
  | some e => rfl

theorem interp_yield : (yieldToQueue j v).interp E.handle (w, s) = (.ok (), w.handBack j v, s) := by
  obtain ⟨t, ht⟩ := @modify_touch w j
  have htouch : E.handle (w, s) (.touchJob j) = (.ok (), { w with jobs := t }, s) := by
    simp only [Steady.handle, Steady.refusal, World.act, ht, Option.map_some]
  have hpush : ∀ w : World, E.handle (w, s) (.lpush (message j v)) =
      (.ok (), { w with queue := message j v :: w.queue }, s) := fun _ => rfl
  unfold yieldToQueue touchUpdatedAt pushToQueue wrapPgErrors wrapRedisErrors World.handBack
  simp only [interp_bind, interp_tryCatch, interp_await, htouch, hpush, ht, Option.getD_some]

theorem interp_bump (cfg : Settings) : (bumpRequeueCounter cfg j).interp E.handle (w, s) =
    (.ok (w.requeues j + 1), w.countUp j, s) := by
  have hcount : E.handle (w, s) (.hincrby (requeueKey j) requeueField) =
      (.ok (w.requeues j + 1), w.bump (requeueKey j) requeueField, s) := rfl
  have hexpire : ∀ w : World, E.handle (w, s) (.expire (requeueKey j) cfg.redisRequeueTtlSeconds) =
      (.ok (), w.setExpiry (requeueKey j), s) := fun _ => rfl
  unfold bumpRequeueCounter wrapRedisErrors World.countUp
  rw [interp_tryCatch]
  simp only [interp_bind, interp_await, hcount]
  by_cases hfirst : w.requeues j + 1 = 1
  · simp only [if_pos hfirst, interp_bind, interp_await, hexpire, interp_pure]
  · simp only [if_neg hfirst, interp_pure]

/-- A stage leaves the stores alone. -/
theorem interp_stage {α : Type} {p : Py α} (hp : p.OnlyCalls Op.IsStage) :
    ∃ s', (p.interp E.handle (w, s)).2 = (w, s') := by
  induction p generalizing s with
  | ret a => exact ⟨s, rfl⟩
  | raise e => exact ⟨s, rfl⟩
  | call o k ih =>
    obtain ⟨ho, hk⟩ := hp
    have hhandle : E.handle (w, s) o = ((E.serve s o).1, w, (E.serve s o).2) := by
      have hrefusal : E.refusal o = none := by
        cases o with
        | updateJob => cases ho
        | _ => rfl
      have hstage : o.isStage = true := ho
      simp only [Steady.handle, hrefusal, act_service ho, hstage, if_true]
    show ∃ s', ((k (E.handle (w, s) o).1).interp E.handle (E.handle (w, s) o).2).2 = (w, s')
    rw [hhandle]
    exact ih _ (hk _)

end Calls

/-! ## 3. How a run ends -/

/-- How a run ends: with a failure write, with the success write, as a counted failure. -/
inductive Fate where
  | close (set : JobSet)
  | save (set : JobSet)
  | counted

/-- The write a job of this fate closes with. -/
def Fate.closing (cfg : Settings) : Fate → JobSet
  | .close set => set
  | .save set => set
  | .counted => orphanSet cfg

/-- What the catch-all handlers write. -/
def raisedSet (e : PyExc) : JobSet :=
  if e.isOCRSystemError then failSet e.isPermanent e.errorCode e.str
  else failSet false "lifecycle_uncaught".toList e.str

/-- A stage that raised; `counts` are its transient failures. -/
def failedFate (counts : PyExc → Bool) (e : PyExc) : Fate :=
  if e.isPermanentPipelineError then .close (failSet true e.errorCode e.str)
  else if counts e then .counted
  else .close (raisedSet e)

/-- From stage 9 on. -/
def finishFate (wk : Worker) (raw : InvoiceResult) : Fate :=
  match wk.postprocess raw with
  | .ok final => .save (successSet final)
  | .error e => .close (raisedSet e)

namespace Outcomes

variable (x : Outcomes) (wk : Worker)

/-- From stage 7 on. -/
def extractFate (crop : Image) : Fate :=
  match x.extract crop with
  | .ok raw => finishFate wk raw
  | .error e => failedFate PyExc.isGeminiExhaustedError e

/-- From stage 5 on. -/
def detectFate (img : Image) : Fate :=
  match x.detect img with
  | .ok crop => x.extractFate wk crop
  | .error e => failedFate PyExc.isTritonUnavailableError e

/-- From stage 4 on. -/
def cacheFate (pp : PreprocessResult) (cached : Option Str) : Fate :=
  match cachedInvoice (cached.bind loadsOrNone) with
  | some raw => finishFate wk raw
  | none => x.detectFate wk pp.pil

/-- **The fate of a job**, with what is cached. -/
def fate (strings : Str → Option Str) : Fate :=
  match x.download with
  | .error e => failedFate PyExc.isStorageTransientError e
  | .ok raw =>
    match preprocessImage wk.cfg wk.lib raw with
    | .error e => failedFate (fun _ => false) e
    | .ok pp => x.cacheFate wk pp (strings (wk.cfg.phashCacheKey pp.phash))

end Outcomes

/-- What the end of a run leaves. -/
def Steady.close {σ : Type} (E : Steady σ) (cfg : Settings) (j : Uuid) (imageUrl : Json) (w : World) :
    Fate → World
  | .close set => E.put w j set
  | .save set =>
    match E.verdict set with
    | none => w.write j set
    | some _ => w.handBack j imageUrl
  | .counted =>
    if cfg.requeueMax < w.requeues j + 1 then E.put (w.countUp j) j (orphanSet cfg)
    else (w.countUp j).handBack j imageUrl

section Ends

variable {σ : Type} {E : Steady σ} {wk : Worker} {w w' w₁ : World} {j : Uuid} {v : Json} {x : Outcomes}

/-- Inside the catch-all handlers, the body returns and leaves `w'`. -/
def Ends (E : Steady σ) (j : Uuid) (q : Py Unit) (w w' : World) : Prop :=
  ∀ s, ∃ s', (q.tryCatch (lifecycleHandler j)).interp E.handle (w, s) = (.ok (), w', s')

theorem ends_of_returns {q : Py Unit} (h : ∀ s, q.interp E.handle (w, s) = (.ok (), w', s)) :
    Ends E j q w w' := by
  intro s
  refine ⟨s, ?_⟩
  rw [interp_tryCatch, h s]

theorem ends_raise (e : PyExc) : Ends E j (.raise e) w (E.put w j (raisedSet e)) := by
  intro s
  refine ⟨s, ?_⟩
  rw [interp_tryCatch, interp_raise]
  unfold lifecycleHandler raisedSet
  simp only
  split
  · exact interp_fail _ _ _
  · rw [interp_tryCatch, interp_fail]

/-- A `try` whose body returns. -/
theorem ends_else {α : Type} {p : Py α} {hd : PyExc → Py Unit} {k : α → Py Unit} {a : α}
    (hp : ∀ s, ∃ s', p.interp E.handle (w, s) = (.ok a, w₁, s')) (h : Ends E j (k a) w₁ w') :
    Ends E j (p.tryElse hd k) w w' := by
  intro s
  obtain ⟨s₁, hs₁⟩ := hp s
  obtain ⟨s', hs'⟩ := h s₁
  refine ⟨s', ?_⟩
  rw [interp_tryCatch] at hs' ⊢
  rw [interp_tryElse, hs₁]
  exact hs'

/-- A `try` whose body raises. -/
theorem ends_except {α : Type} {p : Py α} {hd : PyExc → Py Unit} {k : α → Py Unit} {e : PyExc}
    (hp : ∀ s, ∃ s', p.interp E.handle (w, s) = (.error e, w₁, s')) (h : Ends E j (hd e) w₁ w') :
    Ends E j (p.tryElse hd k) w w' := by
  intro s
  obtain ⟨s₁, hs₁⟩ := hp s
  obtain ⟨s', hs'⟩ := h s₁
  refine ⟨s', ?_⟩
  rw [interp_tryCatch] at hs' ⊢
  rw [interp_tryElse, hs₁]
  exact hs'

/-- The outcome of a stage, the stores as before. -/
theorem comes_out {α : Type} {p : Py α} {y : Except PyExc α} (hp : p.OnlyCalls Op.IsStage)
    (hy : ∀ st, (p.interp E.handle st).1 = y) (s : σ) :
    ∃ s', p.interp E.handle (w, s) = (y, w, s') := by
  obtain ⟨s', hs'⟩ := @interp_stage _ E w s _ p hp
  exact ⟨s', Prod.ext (hy _) hs'⟩

theorem ends_yield : Ends E j (yieldToQueue j v) w (w.handBack j v) :=
  ends_of_returns fun _ => interp_yield

theorem ends_failPermanent (e : PyExc) :
    Ends E j (failPermanent j e) w (E.put w j (failSet true e.errorCode e.str)) :=
  ends_of_returns fun _ => interp_fail _ _ _

theorem ends_requeue : Ends E j (requeueCounted wk.cfg j v) w (E.close wk.cfg j v w .counted) := by
  refine ends_of_returns fun s => ?_
  unfold requeueCounted bumpOrOrphan Proc.bind Steady.close
  rw [interp_tryElse, interp_tryElse, interp_bump]
  simp only
  by_cases hover : wk.cfg.requeueMax < w.requeues j + 1
  · simp only [if_pos hover, interp_bind]
    unfold orphan
    rw [interp_fail]
    rfl
  · simp only [if_neg hover, interp_ret]
    exact interp_yield

/-- The except clauses of a stage. -/
theorem ends_failed (counts : PyExc → Bool) (e : PyExc) : Ends E j
      (if e.isPermanentPipelineError then failPermanent j e
        else if counts e then requeueCounted wk.cfg j v else .raise e) w
      (E.close wk.cfg j v w (failedFate counts e)) := by
  unfold failedFate
  by_cases hperm : e.isPermanentPipelineError = true
  · simp only [if_pos hperm]
    exact ends_failPermanent e
  simp only [if_neg hperm]
  by_cases hcount : counts e = true
  · simp only [if_pos hcount]
    exact ends_requeue
  · simp only [if_neg hcount]
    exact ends_raise e

theorem ends_finish (raw : InvoiceResult) :
    Ends E j (finish wk j v raw) w (E.close wk.cfg j v w (finishFate wk raw)) := by
  unfold finish finishFate
  cases wk.postprocess raw with
  | error e => exact ends_raise e
  | ok final =>
    refine ends_of_returns fun s => ?_
    show (persist j v final).interp E.handle (w, s) = _
    unfold persist Steady.close
    rw [interp_tryCatch, interp_update (fun _ => rfl)]
    unfold Steady.put
    simp only
    cases E.verdict (successSet final) with
    | none => rfl
    | some e => exact interp_yield

/-- Extraction, and what it caches. -/
theorem ends_extract (hx : E.Fixed wk v x) (phash : Str) (crop : Image) :
    ∃ f, Ends E j (extractStage wk j v phash crop) w
        (E.close wk.cfg j v { w with strings := f } (x.extractFate wk crop)) ∧
      (f = w.strings ∨ ∃ raw, x.extract crop = .ok raw ∧
        f = (w.cache (wk.cfg.phashCacheKey phash) (dumps (.obj raw.modelDump))).strings) := by
  have hout := @comes_out _ E w _ _ _ (stage_extractInvoice wk.cfg wk.lib crop) (hx.extract crop)
  unfold extractStage Outcomes.extractFate
  cases hextract : x.extract crop with
  | error e =>
    rw [hextract] at hout
    refine ⟨w.strings, ends_except hout ?_, Or.inl rfl⟩
    rw [hx.not_limited crop e hextract]
    have hclass : e.isGeminiExhaustedError = true → e.isPermanentPipelineError = false := by
      intro hexhausted
      cases e <;> first | rfl | cases hexhausted
    simp only [Bool.false_eq_true, if_false]
    -- the clauses stand in another order here
    by_cases hexhausted : e.isGeminiExhaustedError = true
    · have hfate : failedFate PyExc.isGeminiExhaustedError e = .counted := by
        simp only [failedFate, hclass hexhausted, hexhausted, if_true, Bool.false_eq_true, if_false]
      rw [hfate, if_pos hexhausted]
      exact ends_requeue
    · have hfailed := @ends_failed _ E wk w j v PyExc.isGeminiExhaustedError e
      rw [if_neg hexhausted] at hfailed ⊢
      exact hfailed
  | ok raw =>
    rw [hextract] at hout
    have hcached : ∀ s, ((setPhashCache wk.cfg phash raw.modelDump).tryCatch fun e =>
        if e.isStorageTransientError then .ret () else .raise e).interp E.handle (w, s) =
          (.ok (), w.cache (wk.cfg.phashCacheKey phash) (dumps (.obj raw.modelDump)), s) := fun _ => rfl
    exact ⟨_, ends_else hout (ends_else (fun s => ⟨s, hcached s⟩) (ends_finish raw)),
      Or.inr ⟨raw, rfl, rfl⟩⟩

/-- What a run does before its last write: it marks the row, and may cache what it extracted, which
    is what a cached one of its fate finds. -/
structure Underway (wk : Worker) (x : Outcomes) (j : Uuid) (w w₁ : World) : Prop where
  queue : w₁.queue = w.queue
  requeues : w₁.requeues j = w.requeues j
  row : ∃ row, w₁.jobs.find j = some row ∧ row.status = .processing
  fate : x.fate wk w₁.strings = x.fate wk w.strings

/-- An extraction that was cached is found as it was. -/
theorem cachedInvoice_dumps (raw : InvoiceResult) :
    cachedInvoice ((some (dumps (.obj raw.modelDump))).bind loadsOrNone) = some raw := by
  have hloads : loadsOrNone (dumps (.obj raw.modelDump)) = some (.obj raw.modelDump) := by
    unfold loadsOrNone
    rw [loads_modelDump]
  unfold cachedInvoice
  rw [Option.bind_some, hloads]
  simp only [InvoiceResult.modelValidate_dump]

theorem interp_getPhashCache (phash : Str) (s : σ) :
    (getPhashCache wk.cfg phash).interp E.handle (w, s) =
      (.ok ((w.strings (wk.cfg.phashCacheKey phash)).bind loadsOrNone), w, s) := by
  have hget : E.handle (w, s) (.get (wk.cfg.phashCacheKey phash)) =
      (.ok (w.strings (wk.cfg.phashCacheKey phash)), w, s) := rfl
  unfold getPhashCache wrapRedisErrors Proc.bind
  rw [interp_tryElse, interp_tryCatch, interp_await, hget]
  simp only
  cases w.strings (wk.cfg.phashCacheKey phash) with
  | none => rfl
  | some val => rfl

theorem ends_detect (hx : E.Fixed wk v x) (pp : PreprocessResult) :
    ∃ f, Ends E j (detectStage wk j v pp) w
        (E.close wk.cfg j v { w with strings := f } (x.detectFate wk pp.pil)) ∧
      (f = w.strings ∨ ∃ raw, x.detectFate wk pp.pil = finishFate wk raw ∧
        f = (w.cache (wk.cfg.phashCacheKey pp.phash) (dumps (.obj raw.modelDump))).strings) := by
  have hout := @comes_out _ E w _ _ _ (stage_detectInvoice wk.cfg wk.lib pp.pil) (hx.detect pp.pil)
  unfold detectStage Outcomes.detectFate
  cases hdetect : x.detect pp.pil with
  | error e =>
    rw [hdetect] at hout
    exact ⟨w.strings, ends_except hout (ends_failed _ e), Or.inl rfl⟩
  | ok crop =>
    rw [hdetect] at hout
    have hgranted : ∀ s, ∃ s', (await .acquire : Py Bool).interp E.handle (w, s) = (.ok true, w, s') := by
      intro s
      obtain ⟨s', hs'⟩ := @interp_stage _ E w s _ (await .acquire) (onlyCalls_await rfl)
      refine ⟨s', Prod.ext ?_ hs'⟩
      rw [interp_await]
      exact E.serve_acquire s
    obtain ⟨f, hends, hf⟩ := @ends_extract _ E wk w j v x hx pp.phash crop
    refine ⟨f, ends_else hout (ends_else hgranted hends), ?_⟩
    refine hf.imp_right fun ⟨raw, hraw, heq⟩ => ⟨raw, ?_, heq⟩
    simp only [Outcomes.extractFate, hraw]

/-- From the cache lookup on. -/
theorem ends_cache (hx : E.Fixed wk v x) (pp : PreprocessResult) :
    ∃ f, Ends E j (cacheStage wk j v pp) w (E.close wk.cfg j v { w with strings := f }
        (x.cacheFate wk pp (w.strings (wk.cfg.phashCacheKey pp.phash)))) ∧
      x.cacheFate wk pp (f (wk.cfg.phashCacheKey pp.phash)) =
        x.cacheFate wk pp (w.strings (wk.cfg.phashCacheKey pp.phash)) := by
  have hlookup : ∀ s, ((getPhashCache wk.cfg pp.phash).tryCatch fun e =>
      if e.isStorageTransientError then .ret none else .raise e).interp E.handle (w, s) =
        (.ok ((w.strings (wk.cfg.phashCacheKey pp.phash)).bind loadsOrNone), w, s) := by
    intro s
    rw [interp_tryCatch, interp_getPhashCache]
  unfold cacheStage
  cases hcached : cachedInvoice ((w.strings (wk.cfg.phashCacheKey pp.phash)).bind loadsOrNone) with
  | some raw =>
    have hfate : x.cacheFate wk pp (w.strings (wk.cfg.phashCacheKey pp.phash)) = finishFate wk raw := by
      unfold Outcomes.cacheFate
      rw [hcached]
    refine ⟨w.strings, ends_else (fun s => ⟨s, hlookup s⟩) ?_, rfl⟩
    rw [hcached, hfate]
    exact ends_finish raw
  | none =>
    have hfate : x.cacheFate wk pp (w.strings (wk.cfg.phashCacheKey pp.phash)) =
        x.detectFate wk pp.pil := by
      unfold Outcomes.cacheFate
      rw [hcached]
    obtain ⟨f, hends, hf⟩ := @ends_detect _ E wk w j v x hx pp
    refine ⟨f, ends_else (fun s => ⟨s, hlookup s⟩) ?_, ?_⟩
    · rw [hcached, hfate]
      exact hends
    · rcases hf with rfl | ⟨raw, hraw, rfl⟩
      · rfl
      · rw [hfate, hraw]
        have hfound : (w.cache (wk.cfg.phashCacheKey pp.phash) (dumps (.obj raw.modelDump))).strings
            (wk.cfg.phashCacheKey pp.phash) = some (dumps (.obj raw.modelDump)) := if_pos rfl
        unfold Outcomes.cacheFate
        rw [hfound, cachedInvoice_dumps]

theorem find_put {set : JobSet} (h : set.Sound) : (E.put w j set).jobs.find j =
    match E.verdict set with
    | none => (w.jobs.find j).map (set.apply w.now).run
    | some _ => w.jobs.find j := by
  unfold Steady.put
  cases E.verdict set with
  | none => exact find_write h
  | some e => rfl

theorem put_queue (w : World) (j : Uuid) (set : JobSet) : (E.put w j set).queue = w.queue := by
  unfold Steady.put
  cases E.verdict set <;> rfl

theorem put_strings (w : World) (j : Uuid) (set : JobSet) : (E.put w j set).strings = w.strings := by
  unfold Steady.put
  cases E.verdict set <;> rfl

theorem put_requeues (w : World) (j : Uuid) (set : JobSet) :
    (E.put w j set).requeues j = w.requeues j := by
  unfold Steady.put
  cases E.verdict set <;> rfl

/-- A write that leaves the status alone, or sets it. -/
theorem status_put {set : JobSet} (h : set.Sound) {row : JobRow} (hrow : w.jobs.find j = some row)
    (hstatus : row.status = set.status) :
    ∃ row', (E.put w j set).jobs.find j = some row' ∧ row'.status = set.status := by
  rw [find_put h, hrow]
  cases E.verdict set with
  | none => exact ⟨_, rfl, rfl⟩
  | some e => exact ⟨row, rfl, hstatus⟩

/-- The pHash update, refused or not, leaves a marked row marked. -/
theorem underway_put {row : JobRow} (hrow : w.jobs.find j = some row) (hstatus : row.status = .processing)
    (phash : Str) : Underway wk x j w (E.put w j (phashSet phash)) := by
  obtain ⟨row', hrow', hstatus'⟩ :=
    @status_put _ E w j _ (isMark_phashSet phash).sound row hrow hstatus
  refine ⟨put_queue _ _ _, put_requeues _ _ _, ⟨row', hrow', hstatus'⟩, ?_⟩
  rw [put_strings]

/-- From the pHash update on, which is not fatal. -/
theorem ends_phash (hx : E.Fixed wk v x) {record row : JobRow} (hrow : w.jobs.find j = some row)
    (hstatus : row.status = .processing) {pp : PreprocessResult}
    (hfate : ∀ f, x.fate wk f = x.cacheFate wk pp (f (wk.cfg.phashCacheKey pp.phash))) :
    ∃ w₁, Underway wk x j w w₁ ∧
      Ends E j (phashStage wk j v record pp) w (E.close wk.cfg j v w₁ (x.fate wk w.strings)) := by
  -- the lookup, from a world in which the row may carry the pHash
  have hlookup : ∀ w₀, Underway wk x j w w₀ → w₀.strings = w.strings → ∃ w₁, Underway wk x j w w₁ ∧
      Ends E j (cacheStage wk j v pp) w₀ (E.close wk.cfg j v w₁ (x.fate wk w.strings)) := by
    intro w₀ hunder hstrings
    obtain ⟨f, hends, hf⟩ := @ends_cache _ E wk w₀ j v x hx pp
    rw [← hstrings, hfate]
    refine ⟨{ w₀ with strings := f }, ⟨hunder.queue, hunder.requeues, hunder.row, ?_⟩, hends⟩
    rw [hfate, hfate, ← hstrings]
    exact hf
  unfold phashStage
  by_cases hphash : record.phash ≠ some pp.phash
  · have hupdate : ∀ s, ((updateJobStatus j (phashSet pp.phash)).tryCatch fun e =>
        if e.isDatabaseUnavailable then .ret () else .raise e).interp E.handle (w, s) =
          (.ok (), E.put w j (phashSet pp.phash), s) := by
      intro s
      rw [interp_tryCatch, interp_update (isMark_phashSet pp.phash).sound]
      cases E.verdict (phashSet pp.phash) <;> rfl
    obtain ⟨w₁, hunder, hends⟩ :=
      hlookup _ (underway_put hrow hstatus pp.phash) (put_strings w j (phashSet pp.phash))
    rw [if_pos hphash]
    exact ⟨w₁, hunder, ends_else (fun s => ⟨s, hupdate s⟩) hends⟩
  · rw [if_neg hphash]
    exact hlookup w ⟨rfl, rfl, ⟨row, hrow, hstatus⟩, rfl⟩ rfl

/-- The mark was accepted: from the download on. -/
theorem ends_download (hx : E.Fixed wk v x) {record row : JobRow} (hrow : w.jobs.find j = some row)
    (hstatus : row.status = .processing) :
    ∃ w₁, Underway wk x j w w₁ ∧
      Ends E j (downloadStage wk j v record) w (E.close wk.cfg j v w₁ (x.fate wk w.strings)) := by
  have hout := @comes_out _ E w _ _ _ (stage_downloadImage wk.cfg wk.lib v) hx.download
  have hself : Underway wk x j w w := ⟨rfl, rfl, ⟨row, hrow, hstatus⟩, rfl⟩
  unfold downloadStage
  cases hdownload : x.download with
  | error e =>
    have hfate : x.fate wk w.strings = failedFate PyExc.isStorageTransientError e := by
      simp only [Outcomes.fate, hdownload]
    rw [hdownload] at hout
    refine ⟨w, hself, ends_except hout ?_⟩
    rw [hfate]
    exact ends_failed _ e
  | ok raw =>
    rw [hdownload] at hout
    unfold preprocessStage
    cases hpre : preprocessImage wk.cfg wk.lib raw with
    | error e =>
      have hfate : x.fate wk w.strings = failedFate (fun _ => false) e := by
        simp only [Outcomes.fate, hdownload, hpre]
      refine ⟨w, hself, ends_else hout ?_⟩
      rw [hpre, hfate]
      exact @ends_failed _ E wk w j v (fun _ => false) e
    | ok pp =>
      have hfate : ∀ f, x.fate wk f = x.cacheFate wk pp (f (wk.cfg.phashCacheKey pp.phash)) := by
        intro f
        simp only [Outcomes.fate, hdownload, hpre]
      obtain ⟨w₁, hunder, hends⟩ := @ends_phash _ E wk w j v x hx record row hrow hstatus pp hfate
      refine ⟨w₁, hunder, ends_else hout ?_⟩
      rw [hpre]
      exact hends

/-! ## 4. One run -/

theorem interp_getJobRecord (s : σ) :
    (getJobRecord j).interp E.handle (w, s) = (.ok (w.jobs.find j), w, s) := by
  have hselect : E.handle (w, s) (.selectJob j) = (.ok (w.jobs.find j), w, s) := rfl
  unfold getJobRecord wrapPgErrors
  rw [interp_tryCatch, interp_await, hselect]

/-- A run leaves what its body leaves inside the catch-all handlers. -/
theorem run_of_ends (h : Ends E j (lifecycleBody wk j v) w w') (s : σ) :
    (E.run wk j v (w, s)).1 = w' := by
  obtain ⟨s', hs'⟩ := h s
  unfold Steady.run executeTaskLifecycle
  rw [hs']

/-- A closed job is dropped. -/
theorem run_terminal {row : JobRow} (hrow : w.jobs.find j = some row)
    (hterminal : row.status.isTerminal = true) (s : σ) : (E.run wk j v (w, s)).1 = w := by
  refine run_of_ends (ends_else (fun s => ⟨s, interp_getJobRecord s⟩) ?_) s
  rw [hrow]
  simp only [hterminal, if_true]
  exact ends_of_returns fun _ => rfl

/-- The body past the status check. -/
theorem ends_marking {row : JobRow} (hrow : w.jobs.find j = some row)
    (hopen : row.status.isTerminal = false) (h : Ends E j (markStage wk j v row) w w') :
    Ends E j (lifecycleBody wk j v) w w' := by
  refine ends_else (fun s => ⟨s, interp_getJobRecord s⟩) ?_
  rw [hrow]
  simp only [hopen, Bool.false_eq_true, if_false]
  exact h

/-- A run whose mark is refused hands the job back. -/
theorem run_unmarked {row : JobRow} (hrow : w.jobs.find j = some row)
    (hopen : row.status.isTerminal = false) {e : PyExc} (hmark : E.verdict processingSet = some e)
    (s : σ) : (E.run wk j v (w, s)).1 = w.handBack j v := by
  have hupdate : ∀ s, (updateJobStatus j processingSet).interp E.handle (w, s) =
      (.error (.databaseUnavailable e.str), w, s) := by
    intro s
    rw [interp_update isMark_processingSet.sound]
    unfold Steady.put
    rw [hmark]
  exact run_of_ends (ends_marking hrow hopen (ends_except (fun s => ⟨s, hupdate s⟩) ends_yield)) s

/-- **Every other run ends as the fate of the job has it.** -/
theorem run_marked (hx : E.Fixed wk v x) {row : JobRow} (hrow : w.jobs.find j = some row)
    (hopen : row.status.isTerminal = false) (hmark : E.verdict processingSet = none) :
    ∃ w₁, Underway wk x j w w₁ ∧
      ∀ s, (E.run wk j v (w, s)).1 = E.close wk.cfg j v w₁ (x.fate wk w.strings) := by
  have hupdate : ∀ s, (updateJobStatus j processingSet).interp E.handle (w, s) =
      (.ok (), w.write j processingSet, s) := by
    intro s
    rw [interp_update isMark_processingSet.sound]
    unfold Steady.put
    rw [hmark]
  have hmarked : (w.write j processingSet).jobs.find j =
      some ((processingSet.apply w.now).run row) := by
    rw [find_write isMark_processingSet.sound, hrow]
    rfl
  obtain ⟨w₁, hunder, hends⟩ := @ends_download _ E wk _ j v x hx row _ hmarked rfl
  refine ⟨w₁, ⟨hunder.queue, hunder.requeues, hunder.row, hunder.fate⟩, ?_⟩
  exact run_of_ends (ends_marking hrow hopen (ends_else (fun s => ⟨s, hupdate s⟩) hends))

/-! ## 5. What the end of a run leaves -/

theorem requeues_countUp : (w.countUp j).requeues j = w.requeues j + 1 := by
  unfold World.countUp
  split
  · exact (counter_setExpiry _ _ _ _).trans (counter_bump w _ _)
  · exact counter_bump w _ _

theorem countUp_jobs : (w.countUp j).jobs = w.jobs := by
  unfold World.countUp
  split <;> rfl

theorem countUp_queue : (w.countUp j).queue = w.queue := by
  unfold World.countUp
  split <;> rfl

theorem countUp_strings : (w.countUp j).strings = w.strings := by
  unfold World.countUp
  split <;> rfl

/-- What is cached stays. -/
theorem close_strings (cfg : Settings) (f : Fate) : (E.close cfg j v w f).strings = w.strings := by
  unfold Steady.close
  cases f with
  | close set => exact put_strings w j set
  | save set =>
    simp only
    cases E.verdict set <;> rfl
  | counted =>
    simp only
    split
    · rw [put_strings, countUp_strings]
    · exact countUp_strings

/-- The write that closes a job makes it terminal. -/
structure Fate.Closes (cfg : Settings) (f : Fate) : Prop where
  sound : (f.closing cfg).Sound
  terminal : (f.closing cfg).status.isTerminal = true

theorem closes_failSet (cfg : Settings) (isPermanent : Bool) (code msg : Str) :
    (Fate.close (failSet isPermanent code msg)).Closes cfg :=
  ⟨(isFailure_failSet isPermanent code msg).sound,
    JobStatus.isTerminal_of_isFailed (isFailure_failSet isPermanent code msg).status⟩

theorem closes_raised (cfg : Settings) (e : PyExc) : (Fate.close (raisedSet e)).Closes cfg := by
  unfold raisedSet
  split <;> exact closes_failSet _ _ _ _

theorem closes_failed (cfg : Settings) (counts : PyExc → Bool) (e : PyExc) :
    (failedFate counts e).Closes cfg := by
  unfold failedFate
  split
  · exact closes_failSet _ _ _ _
  · split
    · exact ⟨(isFailure_failSet _ _ _).sound, rfl⟩
    · exact closes_raised _ _

theorem closes_finish (cfg : Settings) (raw : InvoiceResult) : (finishFate wk raw).Closes cfg := by
  unfold finishFate
  split
  · exact ⟨fun _ => rfl, rfl⟩
  · exact closes_raised _ _

theorem closes_fate (cfg : Settings) (strings : Str → Option Str) : (x.fate wk strings).Closes cfg := by
  have hextract : ∀ crop, (x.extractFate wk crop).Closes cfg := by
    intro crop
    unfold Outcomes.extractFate
    split
    · exact closes_finish _ _
    · exact closes_failed _ _ _
  have hdetect : ∀ img, (x.detectFate wk img).Closes cfg := by
    intro img
    unfold Outcomes.detectFate
    split
    · exact hextract _
    · exact closes_failed _ _ _
  have hcache : ∀ pp cached, (x.cacheFate wk pp cached).Closes cfg := by
    intro pp cached
    unfold Outcomes.cacheFate
    split
    · exact closes_finish _ _
    · exact hdetect _
  unfold Outcomes.fate
  split
  · exact closes_failed _ _ _
  · split
    · exact closes_failed _ _ _
    · exact hcache _ _

theorem open_handBack (h : Open j w) : Open j (w.handBack j v) := by
  obtain ⟨row, hrow, hopen⟩ := h
  refine ⟨(touchRow w.now).run row, ?_, hopen⟩
  rw [find_handBack, hrow]
  rfl

theorem closed_write {set : JobSet} (h : Open j w) (hsound : set.Sound)
    (hterminal : set.status.isTerminal = true) : Closed j (w.write j set) := by
  obtain ⟨row, hrow, -⟩ := h
  refine ⟨(set.apply w.now).run row, ?_, hterminal⟩
  rw [find_write hsound, hrow]
  rfl

theorem open_countUp (h : Open j w) : Open j (w.countUp j) := by
  unfold Open
  rw [countUp_jobs]
  exact h

/-- **A refused closing write leaves the job open.** -/
theorem close_refused {cfg : Settings} {f : Fate} {e : PyExc} (h : Open j w)
    (hrefused : E.verdict (f.closing cfg) = some e) : Open j (E.close cfg j v w f) := by
  have hput : ∀ w : World, E.put w j (f.closing cfg) = w := by
    intro w
    unfold Steady.put
    rw [hrefused]
  unfold Steady.close
  cases f with
  | close set =>
    simp only
    rw [show E.put w j set = w from hput w]
    exact h
  | save set =>
    simp only
    rw [show E.verdict set = some e from hrefused]
    exact open_handBack h
  | counted =>
    simp only
    split
    · rw [show E.put (w.countUp j) j (orphanSet cfg) = w.countUp j from hput _]
      exact open_countUp h
    · exact open_handBack (open_countUp h)

/-- **An accepted one closes it**, unless the failure is counted within the cap. -/
theorem close_accepted {cfg : Settings} {f : Fate} (h : Open j w) (hf : f.Closes cfg)
    (haccepted : E.verdict (f.closing cfg) = none) :
    (Closed j (E.close cfg j v w f) ∧ (E.close cfg j v w f).queue = w.queue) ∨
      (w.requeues j + 1 ≤ cfg.requeueMax ∧ E.close cfg j v w f = (w.countUp j).handBack j v) := by
  have hput : ∀ w : World, E.put w j (f.closing cfg) = w.write j (f.closing cfg) := by
    intro w
    unfold Steady.put
    rw [haccepted]
  unfold Steady.close
  cases f with
  | close set =>
    simp only
    rw [show E.put w j set = w.write j set from hput w]
    exact Or.inl ⟨closed_write h hf.sound hf.terminal, rfl⟩
  | save set =>
    simp only
    rw [show E.verdict set = none from haccepted]
    exact Or.inl ⟨closed_write h hf.sound hf.terminal, rfl⟩
  | counted =>
    simp only
    split
    · rw [show E.put (w.countUp j) j (orphanSet cfg) = _ from hput _]
      exact Or.inl ⟨closed_write (open_countUp h) hf.sound hf.terminal, countUp_queue⟩
    · next hcap => exact Or.inr ⟨by omega, rfl⟩

/-! ## 6. Run after run -/

theorem countP_takeMessage (j : Uuid) (queue : List Str) :
    (takeMessage j queue).countP (isMessageOf j) = queue.countP (isMessageOf j) - 1 := by
  have herase : ∀ q : List Str,
      (q.eraseP (isMessageOf j)).countP (isMessageOf j) = q.countP (isMessageOf j) - 1 := by
    intro q
    induction q with
    | nil => rfl
    | cons m q ih =>
      by_cases hm : isMessageOf j m = true
      · rw [List.eraseP_cons_of_pos hm, List.countP_cons_of_pos hm, Nat.add_sub_cancel]
      · rw [List.eraseP_cons_of_neg hm, List.countP_cons_of_neg hm, List.countP_cons_of_neg hm, ih]
  unfold takeMessage
  rw [List.countP_reverse, herase, List.countP_reverse]

/-- The job is open, its fate `f`. -/
structure Pending (wk : Worker) (x : Outcomes) (j : Uuid) (f : Fate) (w : World) : Prop where
  isOpen : Open j w
  fate : x.fate wk w.strings = f

/-- STEP: without both writes no run closes the job. -/
theorem pending_run (hx : E.Fixed wk v x) {f : Fate} (h : Pending wk x j f w)
    (hrefused : ¬ (E.verdict processingSet = none ∧ E.verdict (f.closing wk.cfg) = none)) (s : σ) :
    Pending wk x j f (E.run wk j v (w, s)).1 := by
  obtain ⟨⟨row, hrow, hopen⟩, hfate⟩ := h
  cases hmark : E.verdict processingSet with
  | some e =>
    rw [run_unmarked hrow hopen hmark]
    exact ⟨open_handBack ⟨row, hrow, hopen⟩, hfate⟩
  | none =>
    obtain ⟨w₁, hunder, hrun⟩ := run_marked hx hrow hopen hmark
    obtain ⟨row₁, hrow₁, hstatus₁⟩ := hunder.row
    have hopen₁ : Open j w₁ := ⟨row₁, hrow₁, by rw [hstatus₁]; rfl⟩
    rw [hrun s, hfate]
    constructor
    · cases hclosing : E.verdict (f.closing wk.cfg) with
      | none => exact absurd ⟨hmark, hclosing⟩ hrefused
      | some e => exact close_refused hopen₁ hclosing
    · rw [close_strings, hunder.fate, hfate]

/-- RUN: it stays open. -/
theorem pending_after (hx : E.Fixed wk v x) {f : Fate} {s : σ} (h : Pending wk x j f w)
    (hrefused : ¬ (E.verdict processingSet = none ∧ E.verdict (f.closing wk.cfg) = none)) (n : Nat) :
    Pending wk x j f (E.after wk j v n (w, s)).1 := by
  induction n with
  | zero => exact h
  | succ n ih =>
    refine @pending_run _ E wk ((E.after wk j v n (w, s)).1.taken j (E.pause n)) j v x hx f ?_ hrefused _
    exact ⟨ih.isOpen, ih.fate⟩

/-- The account of the first `n` runs, where both writes are accepted: the job is closed, or all of
    them were counted. -/
structure Accounts (wk : Worker) (x : Outcomes) (j : Uuid) (f : Fate) (n : Nat) (w : World) :
    Prop where
  queued : w.queue.countP (isMessageOf j) ≤ 1
  progress : (Closed j w ∧ (1 ≤ n → w.queue.countP (isMessageOf j) = 0)) ∨
    (Pending wk x j f w ∧ n ≤ w.requeues j ∧ (1 ≤ n → w.requeues j ≤ wk.cfg.requeueMax))

/-- STEP: a run that leaves the job open is counted. -/
theorem accounts_run (hx : E.Fixed wk v x) {f : Fate} {n : Nat} (h : Accounts wk x j f n w)
    (hclosed : w.queue.countP (isMessageOf j) = 0) (hmark : E.verdict processingSet = none)
    (hclosing : E.verdict (f.closing wk.cfg) = none) (s : σ) :
    Accounts wk x j f (n + 1) (E.run wk j v (w, s)).1 := by
  rcases h.progress with ⟨⟨row, hrow, hterminal⟩, -⟩ | ⟨hpending, hcount, -⟩
  · rw [run_terminal hrow hterminal]
    exact ⟨h.queued, Or.inl ⟨⟨row, hrow, hterminal⟩, fun _ => hclosed⟩⟩
  · obtain ⟨⟨row, hrow, hopen⟩, hfate⟩ := hpending
    obtain ⟨w₁, hunder, hrun⟩ := run_marked hx hrow hopen hmark
    obtain ⟨row₁, hrow₁, hstatus₁⟩ := hunder.row
    have hopen₁ : Open j w₁ := ⟨row₁, hrow₁, by rw [hstatus₁]; rfl⟩
    have hcloses : f.Closes wk.cfg := hfate ▸ closes_fate wk.cfg w.strings
    rw [hrun s, hfate]
    rcases @close_accepted _ E w₁ j v wk.cfg f hopen₁ hcloses hclosing with
      ⟨hdone, hqueue⟩ | ⟨hcap, hback⟩
    · have hnone : (E.close wk.cfg j v w₁ f).queue.countP (isMessageOf j) = 0 := by
        rw [hqueue, hunder.queue, hclosed]
      exact ⟨by omega, Or.inl ⟨hdone, fun _ => hnone⟩⟩
    · have hrequeues : ((w₁.countUp j).handBack j v).requeues j = w.requeues j + 1 :=
        requeues_countUp.trans (congrArg (· + 1) hunder.requeues)
      have hqueue : ((w₁.countUp j).handBack j v).queue = message j v :: w.queue := by
        rw [← hunder.queue, ← @countUp_queue w₁ j]
        rfl
      rw [hunder.requeues] at hcap
      rw [hback]
      refine ⟨?_, Or.inr ⟨⟨open_handBack (open_countUp hopen₁), ?_⟩, by omega, fun _ => by omega⟩⟩
      · rw [hqueue, List.countP_cons, hclosed]
        split <;> omega
      · rw [← hback, close_strings, hunder.fate, hfate]

/-- RUN: the account of `n` runs. -/
theorem accounts_after (hx : E.Fixed wk v x) {f : Fate} {s : σ} (h : Accounts wk x j f 0 w)
    (hmark : E.verdict processingSet = none) (hclosing : E.verdict (f.closing wk.cfg) = none)
    (n : Nat) : Accounts wk x j f n (E.after wk j v n (w, s)).1 := by
  induction n with
  | zero => exact h
  | succ n ih =>
    have htaken : ((E.after wk j v n (w, s)).1.taken j (E.pause n)).queue.countP (isMessageOf j) = 0 := by
      have hle := ih.queued
      have hcount := countP_takeMessage j (E.after wk j v n (w, s)).1.queue
      show (takeMessage j (E.after wk j v n (w, s)).1.queue).countP (isMessageOf j) = 0
      omega
    refine @accounts_run _ E wk ((E.after wk j v n (w, s)).1.taken j (E.pause n)) j v x hx f n ?_
      htaken hmark hclosing _
    refine ⟨by omega, ih.progress.imp ?_ ?_⟩
    · exact fun ⟨hdone, _⟩ => ⟨hdone, fun _ => htaken⟩
    · exact fun ⟨hpending, hcount, hcap⟩ => ⟨⟨hpending.isOpen, hpending.fate⟩, hcount, hcap⟩

end Ends

/-- **A poison message terminates**, if and only if Postgres accepts the PROCESSING mark and the write
    its job closes with; one of them refused, the job stays open for good. -/
theorem poison_terminates_iff {σ : Type} {E : Steady σ} {wk : Worker} {w : World} {j : Uuid} {v : Json}
    {x : Outcomes} (hx : E.Fixed wk v x) {row : JobRow} (hrow : w.jobs.find j = some row)
    (hone : w.queue.countP (isMessageOf j) ≤ 1) (s : σ) :
    (∃ n ≤ wk.cfg.requeueMax + 1, Terminated j (E.after wk j v n (w, s)).1) ↔
      row.status.isTerminal = true ∨ (E.verdict processingSet = none ∧
        E.verdict ((x.fate wk w.strings).closing wk.cfg) = none) := by
  constructor
  · intro ⟨n, _, ⟨row', hrow', hterminal⟩, _⟩
    by_contra hno
    rw [not_or] at hno
    have hopen : Open j w := ⟨row, hrow, Bool.eq_false_iff.mpr hno.1⟩
    obtain ⟨row'', hrow'', hopen''⟩ :=
      (@pending_after _ E wk w j v x hx _ s ⟨hopen, rfl⟩ hno.2 n).isOpen
    cases hrow'.symm.trans hrow''
    rw [hterminal] at hopen''
    simp at hopen''
  · intro h
    by_cases hterminal : row.status.isTerminal = true
    · have hrun := @run_terminal _ E wk (w.taken j (E.pause 0)) j v row hrow hterminal s
      refine ⟨1, by omega, ?_⟩
      show Terminated j (E.run wk j v (w.taken j (E.pause 0), s)).1
      rw [hrun]
      refine ⟨⟨row, hrow, hterminal⟩, ?_⟩
      have hcount := countP_takeMessage j w.queue
      show (takeMessage j w.queue).countP (isMessageOf j) = 0
      omega
    · obtain ⟨hmark, hclosing⟩ := h.resolve_left hterminal
      have hopen : Open j w := ⟨row, hrow, Bool.eq_false_iff.mpr hterminal⟩
      have hstart : Accounts wk x j (x.fate wk w.strings) 0 w :=
        ⟨hone, Or.inr ⟨⟨hopen, rfl⟩, Nat.zero_le _, fun hle => absurd hle (by omega)⟩⟩
      have hall := @accounts_after _ E wk w j v x hx _ s hstart hmark hclosing (wk.cfg.requeueMax + 1)
      refine ⟨_, Nat.le_refl _, ?_⟩
      rcases hall.progress with ⟨hclosed, hnone⟩ | ⟨_, hcount, hcap⟩
      · exact ⟨hclosed, hnone (by omega)⟩
      · -- one run more than the cap cannot all have been counted within it
        have hle := hcap (by omega)
        omega

namespace Sample

/-- Services without a memory. -/
def steady (verdict : JobSet → Option PyExc)
    (verdict_pg : ∀ {set e}, verdict set = some e → e.isPgError = true)
    (services : (o : Op) → Except PyExc (Ans o)) (hacquire : services .acquire = .ok true) :
    Steady Unit where
  verdict := verdict
  verdict_pg := verdict_pg
  serve _ o := (services o, ())
  serve_acquire _ := hacquire
  pause _ := 0

/-- What the stages come out with. -/
def outcomes (E : Steady Unit) (wk : Worker) (imageUrl : Json) : Outcomes where
  download := ((downloadImage wk.cfg wk.lib imageUrl).interp E.handle (World.fresh 0, ())).1
  detect img := ((detectInvoice wk.cfg wk.lib img).interp E.handle (World.fresh 0, ())).1
  extract crop := ((extractInvoice wk.cfg wk.lib crop).interp E.handle (World.fresh 0, ())).1

theorem interp_stateless {E : Steady Unit} {α : Type} {p : Py α} (hp : p.OnlyCalls Op.IsStage)
    (st st' : World × Unit) : (p.interp E.handle st).1 = (p.interp E.handle st').1 := by
  induction p generalizing st st' with
  | ret a => rfl
  | raise e => rfl
  | call o k ih =>
    obtain ⟨ho, hk⟩ := hp
    have hhandle : ∀ st : World × Unit, (E.handle st o).1 = (E.serve () o).1 := by
      intro st
      cases o <;> first | rfl | cases ho
    show ((k (E.handle st o).1).interp E.handle _).1 = ((k (E.handle st' o).1).interp E.handle _).1
    rw [hhandle, hhandle]
    exact ih _ (hk _) _ _

theorem fixed_outcomes {E : Steady Unit} {wk : Worker} {v : Json}
    (h : ∀ crop e, ((extractInvoice wk.cfg wk.lib crop).interp E.handle (World.fresh 0, ())).1 = .error e →
      e.isRateLimitedLocallyError = false) :
    E.Fixed wk v (outcomes E wk v) where
  download _ := interp_stateless (stage_downloadImage _ _ _) _ _
  detect _ _ := interp_stateless (stage_detectInvoice _ _ _) _ _
  extract _ _ := interp_stateless (stage_extractInvoice _ _ _) _ _
  not_limited := h

/-- A submitted job, alone in the queue. -/
def submission : List Move := [.spawn (.submit job url), .run 0, .run 0, .run 0]

theorem replays_submission : (deployment.replay (World.fresh 0) submission).isSome = true := by
  decide +kernel

def sole : World := ((deployment.replay (World.fresh 0) submission).get replays_submission).2.world

/-- The CDN is not reached. -/
def unreachable : (o : Op) → Except PyExc (Ans o)
  | .request _ => .error (.httpxConnectError "All connection attempts failed".toList)
  | .acquire => .ok true
  | _ => .error (.timeoutError [])

def patient : Steady Unit := steady (fun _ => none) nofun unreachable rfl

theorem fixed_patient : patient.Fixed (deployment.worker 0) (.str url)
    (outcomes patient (deployment.worker 0) (.str url)) := by
  refine fixed_outcomes fun crop e he => ?_
  cases he
  rfl

/-- Gemini reads a name with a NUL character. -/
def readsNul : (o : Op) → Except PyExc (Ans o)
  | .generateContent _ => .ok (some "\x7b\"name\": \"A\\u0000\"\x7d".toList)
  | o => services o

/-- `jsonb` has no NUL. -/
def refusesNul (set : JobSet) : Option PyExc :=
  match set.result with
  | some result =>
    if "\\u0000".toList <:+: dumps (.obj result) then
      some (.postgresError "unsupported Unicode escape sequence".toList)
    else none
  | none => none

theorem refusesNul_pg {set : JobSet} {e : PyExc} (h : refusesNul set = some e) : e.isPgError = true := by
  unfold refusesNul at h
  split at h
  · split at h
    · cases h
      rfl
    · simp at h
  · simp at h

def poisoned : Steady Unit := steady refusesNul refusesNul_pg readsNul rfl

theorem extract_readsNul (crop : Image) :
    ((extractInvoice (caching.worker 0).cfg (caching.worker 0).lib crop).interp poisoned.handle
      (World.fresh 0, ())).1 = readResponse (some "\x7b\"name\": \"A\\u0000\"\x7d".toList) := by
  have hprompt : loadSystemPrompt (caching.worker 0).cfg (caching.worker 0).lib =
      .ok "Read the invoice.".toList := rfl
  have hclient : getClient (caching.worker 0).cfg = .ok () := if_neg (by decide)
  have hencode : (caching.worker 0).lib.encodeJpeg crop = .ok crop.pixels := rfl
  have hanswer : ∀ st req, poisoned.handle st (.generateContent req) =
      (.ok (some "\x7b\"name\": \"A\\u0000\"\x7d".toList), st) := fun _ _ => rfl
  have hattempts : List.range ((caching.worker 0).cfg.geminiBackoffsSeconds.length + 1) =
      [0, 1, 2, 3] := rfl
  unfold extractInvoice
  rw [interp_bind, interp_ofExcept, hprompt]
  simp only
  rw [interp_bind, interp_ofExcept, hclient]
  simp only
  rw [interp_bind, interp_ofExcept, hencode]
  simp only
  rw [hattempts]
  unfold extractAttempts
  rw [interp_tryElse, interp_await, hanswer]
  simp only
  rw [interp_ofExcept]

theorem fixed_poisoned : poisoned.Fixed (caching.worker 0) (.str url)
    (outcomes poisoned (caching.worker 0) (.str url)) := by
  have hread : (readResponse (some "\x7b\"name\": \"A\\u0000\"\x7d".toList)).isOk = true := by
    decide +kernel
  refine fixed_outcomes fun crop e he => ?_
  rw [extract_readsNul] at he
  rw [he] at hread
  cases hread

theorem find_sole : (sole.jobs.find job).isSome = true := by decide +kernel

/-- The row of the job. -/
def row : JobRow := (sole.jobs.find job).get find_sole

theorem find_row : sole.jobs.find job = some row := (Option.some_get find_sole).symm

theorem queued_once : sole.queue.countP (isMessageOf job) = 1 := by decide +kernel

end Sample

/-- Four runs and the job is orphaned. -/
theorem poison_terminates_unreachable : ∃ n ≤ 3 + 1, Terminated Sample.job
    (Sample.patient.after (Sample.deployment.worker 0) Sample.job (.str Sample.url) n
      (Sample.sole, ())).1 :=
  (poison_terminates_iff Sample.fixed_patient Sample.find_row (Nat.le_of_eq Sample.queued_once) ()).mpr
    (Or.inr ⟨rfl, rfl⟩)

/-- A name with a NUL character: every failure write and every mark is accepted, the success write never
    is, and every run hands the job back. -/
theorem poison_loops :
    Sample.poisoned.Fixed (Sample.caching.worker 0) (.str Sample.url)
        (Sample.outcomes Sample.poisoned (Sample.caching.worker 0) (.str Sample.url)) ∧
      (∀ set, set.result = none → Sample.poisoned.verdict set = none) ∧
      Open Sample.job Sample.sole ∧ Sample.sole.queue.countP (isMessageOf Sample.job) = 1 ∧
      ¬ ∃ n ≤ Sample.caching.cfg.requeueMax + 1, Terminated Sample.job
        (Sample.poisoned.after (Sample.caching.worker 0) Sample.job (.str Sample.url) n
          (Sample.sole, ())).1 := by
  have hpending : Sample.row.status.isTerminal = false := by decide +kernel
  refine ⟨Sample.fixed_poisoned, fun set hnone => ?_, ⟨Sample.row, Sample.find_row, hpending⟩,
    Sample.queued_once, fun ⟨n, _, hdone, _⟩ => ?_⟩
  · show Sample.refusesNul set = none
    unfold Sample.refusesNul
    rw [hnone]
  · have hrefused : (Sample.poisoned.verdict (((Sample.outcomes Sample.poisoned
        (Sample.caching.worker 0) (.str Sample.url)).fate (Sample.caching.worker 0)
          Sample.sole.strings).closing (Sample.caching.worker 0).cfg)).isSome = true := by
      decide +kernel
    have hnot : ¬ (Sample.poisoned.verdict processingSet = none ∧
        Sample.poisoned.verdict (((Sample.outcomes Sample.poisoned (Sample.caching.worker 0)
          (.str Sample.url)).fate (Sample.caching.worker 0) Sample.sole.strings).closing
            (Sample.caching.worker 0).cfg) = none) := by
      intro ⟨_, hnone⟩
      rw [hnone] at hrefused
      simp at hrefused
    have hopen := (@pending_after _ Sample.poisoned (Sample.caching.worker 0) Sample.sole Sample.job
      (.str Sample.url) _ Sample.fixed_poisoned _ ()
      ⟨⟨Sample.row, Sample.find_row, hpending⟩, rfl⟩ hnot n).isOpen
    obtain ⟨row, hrow, hterminal⟩ := hdone
    obtain ⟨row', hrow', hopen'⟩ := hopen
    cases hrow.symm.trans hrow'
    rw [hterminal] at hopen'
    simp at hopen'

end InvoiceOcr
