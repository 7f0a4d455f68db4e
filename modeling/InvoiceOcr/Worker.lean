/-
  File:      InvoiceOcr/Worker.lean
  Subject:   THE WORKER (src/worker/loop.py, main.py, sweeper.py, nightly_purge.py).

  * `fail`, `yieldToQueue`, `orphan`, `bumpOrOrphan` -- the helpers of the same names;
  * `executeTaskLifecycle` -- the lifecycle of one job. Its body is cut where its comments number
    the stages; a stage ends by going on with the next one, outside its own `try`;
  * `workerIteration` -- one pass of the loop of `_worker_task`, for any lifecycle;
  * `sweepOnce`, `sweeperIteration`, `purgeIteration` -- the daemons, one pass each.

  Every exception is an ordinary `Exception`; cancellation is not modelled. Metrics, logging and
  context variables are left out.
-/
import InvoiceOcr.Pipeline

namespace InvoiceOcr

open PyJson Async

/-- What a worker process runs with; `postprocess` is the function of that name applied to the
    whitelist index of the process. -/
structure Worker where
  cfg : Settings
  lib : Externals
  postprocess : InvoiceResult → Except PyExc InvoiceResult

/-! ## 1. Terminal-state helpers -/

/-- The columns `_fail` writes. -/
def failSet (isPermanent : Bool) (errorCode errorMessage : Str) : JobSet where
  status := if isPermanent then .failedPermanent else .failedTransient
  errorCode := some errorCode
  errorMessage := some errorMessage

/-- `_fail`: never raises. -/
def fail (jobId : Uuid) (isPermanent : Bool) (errorCode errorMessage : Str) : Py Unit :=
  (updateJobStatus jobId (failSet isPermanent errorCode errorMessage)).tryCatch fun _ => .ret ()

/-- `_yield_to_queue`. -/
def yieldToQueue (jobId : Uuid) (imageUrl : Json) : Py Unit := do
  touchUpdatedAt jobId
  pushToQueue jobId imageUrl

/-- The columns `_orphan` has `_fail` write. -/
def orphanSet (cfg : Settings) : JobSet :=
  failSet true "orphan_requeue_cap".toList
    ("requeue counter exceeded ".toList ++ natStr cfg.requeueMax)

/-- `_orphan`. -/
def orphan (cfg : Settings) (jobId : Uuid) : Py Unit :=
  fail jobId true "orphan_requeue_cap".toList
    ("requeue counter exceeded ".toList ++ natStr cfg.requeueMax)

/-- `_bump_or_orphan`: `none` once orphaned. A failed bump has yielded when it returns 0. -/
def bumpOrOrphan (cfg : Settings) (jobId : Uuid) (imageUrl : Json) : Py (Option Nat) :=
  (bumpRequeueCounter cfg jobId).tryElse
    (fun e =>
      if e.isStorageTransientError then do
        yieldToQueue jobId imageUrl
        return some 0
      else .raise e)
    fun count =>
      if cfg.requeueMax < count then do
        orphan cfg jobId
        return none
      else .ret (some count)

/-- The transient branch of a stage: bump, and yield unless orphaned. -/
def requeueCounted (cfg : Settings) (jobId : Uuid) (imageUrl : Json) : Py Unit :=
  (bumpOrOrphan cfg jobId imageUrl).bind fun
    | none => .ret ()
    | some _ => yieldToQueue jobId imageUrl

/-- `except PermanentPipelineError as e`. -/
def failPermanent (jobId : Uuid) (e : PyExc) : Py Unit := fail jobId true e.errorCode e.str

/-! ## 2. The lifecycle -/

section Lifecycle

variable (wk : Worker) (jobId : Uuid) (imageUrl : Json)

/-- The columns of the success write. -/
def successSet (final : InvoiceResult) : JobSet where
  status := .succeeded
  result := some final.modelDump

/-- 10. Persist result. -/
def persist (final : InvoiceResult) : Py Unit :=
  (updateJobStatus jobId (successSet final)).tryCatch fun e =>
    if e.isDatabaseUnavailable then yieldToQueue jobId imageUrl else .raise e

/-- 9. Postprocess, on a cache hit as well. -/
def finish (rawInvoice : InvoiceResult) : Py Unit :=
  (Proc.ofExcept (wk.postprocess rawInvoice)).bind fun final => persist jobId imageUrl final

/-- 7. Gemini extract. 8. Cache RAW, best effort. -/
def extractStage (phash : Str) (crop : Image) : Py Unit :=
  (extractInvoice wk.cfg wk.lib crop).tryElse
    (fun e =>
      if e.isRateLimitedLocallyError then yieldToQueue jobId imageUrl
      else if e.isGeminiExhaustedError then requeueCounted wk.cfg jobId imageUrl
      else if e.isPermanentPipelineError then failPermanent jobId e
      else .raise e)
    fun rawInvoice => do
      (setPhashCache wk.cfg phash rawInvoice.modelDump).tryCatch fun e =>
        if e.isStorageTransientError then .ret () else .raise e
      finish wk jobId imageUrl rawInvoice

/-- 6. Token bucket: yield when it is empty. -/
def acquireStage (phash : Str) (crop : Image) : Py Unit :=
  (await .acquire).bind fun granted =>
    if granted then extractStage wk jobId imageUrl phash crop else yieldToQueue jobId imageUrl

/-- 5. YOLO detect. -/
def detectStage (pp : PreprocessResult) : Py Unit :=
  (detectInvoice wk.cfg wk.lib pp.pil).tryElse
    (fun e =>
      if e.isPermanentPipelineError then failPermanent jobId e
      else if e.isTritonUnavailableError then requeueCounted wk.cfg jobId imageUrl
      else .raise e)
    fun crop => acquireStage wk jobId imageUrl pp.phash crop

/-- A cached payload that still validates. -/
def cachedInvoice (cachedRaw : Option Json) : Option InvoiceResult :=
  match cachedRaw with
  | none => none
  | some v =>
    match InvoiceResult.modelValidate v with
    | .ok r => some r
    | .error _ => none

/-- 4. Cache lookup; a blip is a miss. -/
def cacheStage (pp : PreprocessResult) : Py Unit := do
  let cachedRaw ← (getPhashCache wk.cfg pp.phash).tryCatch fun e =>
    if e.isStorageTransientError then .ret none else .raise e
  match cachedInvoice cachedRaw with
  | some rawInvoice => finish wk jobId imageUrl rawInvoice
  | none => detectStage wk jobId imageUrl pp

/-- The columns of the pHash update. -/
def phashSet (phash : Str) : JobSet where
  status := .processing
  phash := some phash

/-- The pHash update after preprocessing, not fatal when Postgres is unavailable. -/
def phashStage (record : JobRow) (pp : PreprocessResult) : Py Unit := do
  if record.phash ≠ some pp.phash then
    (updateJobStatus jobId (phashSet pp.phash)).tryCatch fun e =>
      if e.isDatabaseUnavailable then .ret () else .raise e
  cacheStage wk jobId imageUrl pp

/-- 3. Preprocess. -/
def preprocessStage (record : JobRow) (raw : Bytes) : Py Unit :=
  (Proc.ofExcept (preprocessImage wk.cfg wk.lib raw)).tryElse
    (fun e => if e.isPermanentPipelineError then failPermanent jobId e else .raise e)
    fun pp => phashStage wk jobId imageUrl record pp

/-- 2. Download image from CDN. -/
def downloadStage (record : JobRow) : Py Unit :=
  (downloadImage wk.cfg wk.lib imageUrl).tryElse
    (fun e =>
      if e.isPermanentPipelineError then failPermanent jobId e
      else if e.isStorageTransientError then requeueCounted wk.cfg jobId imageUrl
      else .raise e)
    fun raw => preprocessStage wk jobId imageUrl record raw

/-- The columns of the PROCESSING mark. -/
def processingSet : JobSet where
  status := .processing

/-- 1. Mark PROCESSING. -/
def markStage (record : JobRow) : Py Unit :=
  (updateJobStatus jobId processingSet).tryElse
    (fun e => if e.isDatabaseUnavailable then yieldToQueue jobId imageUrl else .raise e)
    fun _ => downloadStage wk jobId imageUrl record

/-- 0. Quick status check, and what follows it. -/
def lifecycleBody : Py Unit :=
  (getJobRecord jobId).tryElse
    (fun e => if e.isDatabaseUnavailable then yieldToQueue jobId imageUrl else .raise e)
    fun
    | none => .ret ()
    | some record =>
      if record.status.isTerminal then .ret () else markStage wk jobId imageUrl record

/-- The catch-all handlers. -/
def lifecycleHandler (e : PyExc) : Py Unit :=
  if e.isOCRSystemError then fail jobId e.isPermanent e.errorCode e.str
  else (fail jobId false "lifecycle_uncaught".toList e.str).tryCatch fun _ => .ret ()

/-- `execute_task_lifecycle`. -/
def executeTaskLifecycle : Py Unit :=
  (lifecycleBody wk jobId imageUrl).tryCatch (lifecycleHandler jobId)

end Lifecycle

/-! ## 3. The loops -/

/-- One pass of the loop of `_worker_task`; the pop stands outside the `try`. -/
def workerIteration (depth : Nat) (lifecycle : Uuid → Json → Py Unit) : Py Unit :=
  (popFromQueue depth).bind fun
    | none => .ret ()
    | some msg =>
      Proc.tryCatch
        ((Proc.ofExcept (readMessage msg)).bind fun m => lifecycle m.1 m.2)
        fun _ => .ret ()

/-- What the sweeper has `_fail` write on a row it selected. -/
def staleSet (r : JobRow) : JobSet :=
  failSet false "stale_timeout".toList
    ("sweeper: status=".toList ++ r.status.value ++ " age exceeded threshold".toList)

/-- The loop of `_sweep_once` over the selected rows, `n` of them counted so far. -/
def sweepRows : List JobRow → Nat → Py Nat
  | [], n => .ret n
  | r :: rs, n =>
    (fail r.jobId false "stale_timeout".toList
      ("sweeper: status=".toList ++ r.status.value ++ " age exceeded threshold".toList)).tryElse
      (fun _ => sweepRows rs n) fun _ => sweepRows rs (n + 1)

def sweepOnce (cfg : Settings) : Py Nat :=
  (selectStaleJobs cfg).bind fun rows => sweepRows rows 0

/-- One pass of `sweeper_loop`. -/
def sweeperIteration (cfg : Settings) : Py Unit :=
  (sweepOnce cfg).tryElse (fun _ => .ret ()) fun _ => .ret ()

/-- One pass of `nightly_purge_loop` on the process that leads it. -/
def purgeIteration (cfg : Settings) : Py Unit :=
  (purgeOldJobRecords cfg).tryElse (fun _ => .ret ()) fun _ => .ret ()

end InvoiceOcr
