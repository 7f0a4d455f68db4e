/-
  File:      InvoiceOcr/Storage.lean
  Subject:   THE STORAGE CLIENTS (src/storage/postgres_client.py, src/storage/redis_client.py).

  * the methods of `PostgresClient`, each one statement under `_wrap_pg_errors`;
  * the methods of `RedisClient` on the queue, the pHash cache and the requeue counter;
  * `popFromQueue` -- the pop, with the levels of JSON that the stack of its task holds;
  * `message`, `decodeMessage` -- what a queue message is written as and read as, and
    **`decodeMessage_message`**: reading undoes writing.

  The result column is kept as the dict itself: `json.dumps` into it and `json.loads` out of it
  are `loads_dumps`. The connection pool, `ping` and the rate-limit hash are not modelled.
-/
import InvoiceOcr.Json.Depth
import InvoiceOcr.Calls

namespace InvoiceOcr

open PyJson Async

/-! ## 1. Postgres -/

/-- `_wrap_pg_errors`. -/
def wrapPgErrors {α : Type} (p : Py α) : Py α :=
  p.tryCatch fun e => .raise (if e.isPgError then .databaseUnavailable e.str else e)

def createJobRecord (jobId : Uuid) (imageUrl : Str) : Py Unit :=
  wrapPgErrors (await (.insertJob jobId .pending imageUrl))

def updateJobStatus (jobId : Uuid) (set : JobSet) : Py Unit :=
  wrapPgErrors (await (.updateJob jobId set))

def touchUpdatedAt (jobId : Uuid) : Py Unit := wrapPgErrors (await (.touchJob jobId))

def getJobRecord (jobId : Uuid) : Py (Option JobRow) := wrapPgErrors (await (.selectJob jobId))

/-- `timedelta(minutes=n)` in microseconds. -/
def minutes (n : Nat) : Nat := n * 60000000

/-- `timedelta(days=n)` in microseconds. -/
def days (n : Nat) : Nat := n * 86400000000

def selectStaleJobs (cfg : Settings) : Py (List JobRow) :=
  wrapPgErrors (await (.selectStale (minutes cfg.staleProcessingMinutes)
    (minutes cfg.stalePendingMinutes)))

def purgeOldJobRecords (cfg : Settings) : Py Nat :=
  wrapPgErrors (await (.deleteOld (days cfg.jobRetentionDays)))

/-! ## 2. Redis -/

/-- `except RedisError as e: raise StorageTransientError(f"{what} failed: {e}")`. -/
def wrapRedisErrors {α : Type} (what : Str) (p : Py α) : Py α :=
  p.tryCatch fun e => .raise
    (if e.isRedisError then .storageTransient (what ++ " failed: ".toList ++ e.str) else e)

/-- `json.dumps({"job_id": str(job_id), "image_url": image_url})`. -/
def message (jobId : Uuid) (imageUrl : Json) : Str :=
  dumps (.obj [("job_id".toList, .str jobId.str), ("image_url".toList, imageUrl)])

def pushToQueue (jobId : Uuid) (imageUrl : Json) : Py Unit :=
  wrapRedisErrors "redis push_to_queue".toList (await (.lpush (message jobId imageUrl)))

/-- `json.loads(val)`, `None` when it fails; JSON `null` loads as `None`. -/
def loadsOrNone (val : Str) : Option Json :=
  match loads val with
  | some .null => none
  | v => v

/-- What is left of `sys.getrecursionlimit()`, 1000, where a slot's task calls `json.loads` on
    CPython 3.11, as the Dockerfile has it. -/
def jsonDepth : Nat := 981

/-- The `RecursionError` of `json.loads`, no `ValueError`. -/
def recursionError (container : Str) : PyExc :=
  .exception ("maximum recursion depth exceeded while decoding a JSON ".toList ++ container ++
    " from a unicode string".toList)

/-- `json.loads(val)`, where the stack has `depth` levels left. -/
def loadsWithin (depth : Nat) (val : Str) : Py (Option Json) :=
  match tooDeep depth val with
  | some container => .raise (recursionError container)
  | none => .ret (loadsOrNone val)

theorem loadsWithin_tooDeep {depth : Nat} {val container : Str}
    (h : tooDeep depth val = some container) :
    loadsWithin depth val = .raise (recursionError container) := by
  simp only [loadsWithin, h]

theorem loadsWithin_flat {depth : Nat} {val : Str} (h : tooDeep depth val = none) :
    loadsWithin depth val = .ret (loadsOrNone val) := by
  simp only [loadsWithin, h]

/-- `pop_from_queue`: a connection blip is a timeout, any other Redis error is raised, and so is a
    text that nests too deep for the `depth` levels the stack has left. -/
def popFromQueue (depth : Nat) : Py (Option Json) :=
  (await .brpop).tryElse
    (fun e =>
      if e.isRedisBlip then .ret none
      else if e.isRedisError then
        .raise (.storageTransient ("redis pop_from_queue failed: ".toList ++ e.str))
      else .raise e)
    fun
    | none => .ret none
    | some val => loadsWithin depth val

theorem onlyCalls_loadsWithin {C : Op → Prop} (depth : Nat) (val : Str) :
    (loadsWithin depth val).OnlyCalls C := by
  unfold loadsWithin
  split <;> exact trivial

theorem onlyCalls_pop {C : Op → Prop} (h : C .brpop) (depth : Nat) :
    (popFromQueue depth).OnlyCalls C := by
  refine onlyCalls_tryElse (onlyCalls_await h) (fun e => ?_) fun val => ?_
  · split
    · exact trivial
    · split <;> exact trivial
  · cases val with
    | none => exact trivial
    | some val => exact onlyCalls_loadsWithin depth val

def getQueueDepth : Py Nat := wrapRedisErrors "redis llen".toList (await .llen)

/-- `get_phash_cache`. Its texts are those of `set_phash_cache`: three levels, far from too deep. -/
def getPhashCache (cfg : Settings) (phash : Str) : Py (Option Json) :=
  (wrapRedisErrors "redis get_phash_cache".toList (await (.get (cfg.phashCacheKey phash)))).bind
    fun
    | none => .ret none
    | some val => .ret (loadsOrNone val)

def setPhashCache (cfg : Settings) (phash : Str) (rawPayload : Dict) : Py Unit :=
  wrapRedisErrors "redis set_phash_cache".toList
    (await (.setex (cfg.phashCacheKey phash) cfg.redisPhashTtlSeconds (dumps (.obj rawPayload))))

/-- `HINCRBY`, and `EXPIRE` on the first count; a failure of either is one error. -/
def bumpRequeueCounter (cfg : Settings) (jobId : Uuid) : Py Nat :=
  wrapRedisErrors "redis bump_requeue".toList do
    let count ← await (.hincrby (requeueKey jobId) requeueField)
    if count = 1 then
      await (.expire (requeueKey jobId) cfg.redisRequeueTtlSeconds)
    return count

/-! ## 3. Queue messages -/

/-- `d[k]` of a loaded value. -/
def getItem (v : Json) (k : Str) : Except PyExc Json :=
  match v with
  | .obj d =>
    match Dict.get? d k with
    | some x => .ok x
    | none => .error (.keyError k)
  | _ => .error (.typeError "indices must be integers or slices, not str".toList)

/-- `UUID(v)`. -/
def uuidOf (v : Json) : Except PyExc Uuid :=
  match v with
  | .str s =>
    match Uuid.parse s with
    | some u => .ok u
    | none => .error (.valueError "badly formed hexadecimal UUID string".toList)
  | _ => .error (.attributeError "object has no attribute 'replace'".toList)

/-- `UUID(msg["job_id"])` and `msg["image_url"]`. -/
def readMessage (msg : Json) : Except PyExc (Uuid × Json) := do
  let jobId ← uuidOf (← getItem msg "job_id".toList)
  let imageUrl ← getItem msg "image_url".toList
  return (jobId, imageUrl)

/-- The job and the URL a queued text stands for, as a worker reads it. -/
def decodeMessage (val : Str) : Option (Uuid × Json) :=
  match tooDeep jsonDepth val with
  | some _ => none
  | none =>
    match loadsOrNone val with
    | none => none
    | some v =>
      match readMessage v with
      | .ok r => some r
      | .error _ => none

/-- A text that kills the slot stands for no job. -/
theorem decodeMessage_tooDeep {val container : Str} (h : tooDeep jsonDepth val = some container) :
    decodeMessage val = none := by
  simp only [decodeMessage, h]

/-- A text that stands for a job. -/
def isMessageOf (jobId : Uuid) (val : Str) : Bool :=
  match decodeMessage val with
  | some (j, _) => j = jobId
  | none => false

theorem plain_message (jobId : Uuid) {imageUrl : Json} (h : Plain imageUrl) :
    Plain (.obj [("job_id".toList, .str jobId.str), ("image_url".toList, imageUrl)]) :=
  ⟨by simp [Dict.keys], trivial, h, trivial⟩

theorem tooDeep_message (jobId : Uuid) {imageUrl : Json} (h : Plain imageUrl) {depth : Nat}
    (hdepth : imageUrl.height < depth) : tooDeep depth (message jobId imageUrl) = none := by
  refine (tooDeep_dumps (plain_message jobId h) depth).mpr ?_
  simpa only [Json.height, heightPairs, Nat.max_zero, Nat.zero_max, Nat.succ_le_iff] using hdepth

/-- **A pushed message is read back as what was pushed.** -/
theorem decodeMessage_message (jobId : Uuid) {imageUrl : Json} (h : Plain imageUrl)
    (hdepth : imageUrl.height < jsonDepth) :
    decodeMessage (message jobId imageUrl) = some (jobId, imageUrl) := by
  have hl : loadsOrNone (message jobId imageUrl) =
      some (.obj [("job_id".toList, .str jobId.str), ("image_url".toList, imageUrl)]) := by
    simp only [loadsOrNone, message, loads_dumps (plain_message jobId h)]
  have hr : readMessage
      (.obj [("job_id".toList, .str jobId.str), ("image_url".toList, imageUrl)]) =
      .ok (jobId, imageUrl) := by
    show (do let u ← uuidOf (.str jobId.str); return (u, imageUrl) : Except PyExc _) = _
    simp only [uuidOf, Uuid.parse_str]
    rfl
  simp only [decodeMessage, tooDeep_message jobId h hdepth, hl, hr]

/-- The messages the program writes carry a text as URL. -/
theorem decodeMessage_text (jobId : Uuid) (url : Str) :
    decodeMessage (message jobId (.str url)) = some (jobId, .str url) :=
  decodeMessage_message jobId trivial (Nat.zero_lt_succ 980)

theorem isMessageOf_text (jobId : Uuid) (url : Str) (j : Uuid) :
    isMessageOf j (message jobId (.str url)) = decide (jobId = j) := by
  simp only [isMessageOf, decodeMessage_text]

end InvoiceOcr
