/-
  File:      InvoiceOcr/Api.lean
  Subject:   SUBMITTING A RECEIPT (src/api/routes.py, src/api/backpressure.py).

  * `checkBackpressure`, `validateImageDomain`, `submitReceipt` -- as the source has them; the
    request body has passed `SubmitRequest`, its URL is a text;
  * `httpStatus` -- the status code a client sees, FastAPI's handling of what is raised included.
-/
import InvoiceOcr.Storage

namespace InvoiceOcr

open PyJson Async

variable (cfg : Settings) (lib : Externals)

/-- A `JSONResponse`. -/
structure Response where
  statusCode : Nat
  content : Dict

/-- `check_backpressure`. -/
def checkBackpressure : Py Unit :=
  getQueueDepth.tryElse (fun _ => .ret ()) fun depth =>
    if cfg.backpressureQueueReject ≤ depth then
      .raise (.httpException 429 "backpressure_reject".toList)
    else .ret ()

/-- `hostname == domain or hostname.endswith(f".{domain}")`. -/
def hostMatches (hostname domain : Str) : Bool :=
  hostname == domain || ('.' :: domain).isSuffixOf hostname

/-- `str(list)` of texts. -/
def listText (xs : List Str) : Str :=
  "[".toList ++ List.intercalate ", ".toList (xs.map lib.repr) ++ "]".toList

/-- `_validate_image_domain`. -/
def validateImageDomain (url : Str) : Except PyExc Unit := do
  let hostname := (← lib.hostname url).getD []
  if cfg.allowedImageDomains.any (hostMatches hostname) then return ()
  else
    .error (.valueError ("Domain ".toList ++ lib.repr hostname ++ " not in allowlist: ".toList ++
      listText lib cfg.allowedImageDomains))

/-- `_error_response`. -/
def errorResponse (jobId : Uuid) (httpStatus : Nat) (code msg : Str) : Response where
  statusCode := httpStatus
  content :=
    [("job_id".toList, .str jobId.str),
     ("status".toList, .str (if httpStatus ∈ [400, 413, 415, 422] then "FAILED_PERMANENT".toList
        else "FAILED_TRANSIENT".toList)),
     ("error_code".toList, .str code),
     ("error_message".toList, .str msg)]

/-- The answer to an accepted submission. -/
def acceptedResponse (jobId : Uuid) : Response where
  statusCode := 202
  content :=
    [("job_id".toList, .str jobId.str),
     ("status".toList, .str "PENDING".toList),
     ("message".toList,
       .str "Job accepted. Poll GET /v1/receipts/{job_id} for results.".toList)]

/-- Enqueue, and answer. -/
def enqueue (jobId : Uuid) (imageUrl : Str) : Py Response :=
  (pushToQueue jobId (.str imageUrl)).tryElse
    (fun e =>
      if e.isStorageTransientError then
        .ret (errorResponse jobId 503 "storage_transient".toList e.str)
      else .raise e)
    fun _ => .ret (acceptedResponse jobId)

/-- Persist the job row, then enqueue. -/
def persistAndEnqueue (jobId : Uuid) (imageUrl : Str) : Py Response :=
  (createJobRecord jobId imageUrl).tryElse
    (fun e =>
      if e.isDatabaseUnavailable then
        .ret (errorResponse jobId 503 "database_unavailable".toList e.str)
      else .raise e)
    fun _ => enqueue jobId imageUrl

/-- The allowlist check and what follows it. -/
def validateAndPersist (jobId : Uuid) (imageUrl : Str) : Py Response :=
  match validateImageDomain cfg lib imageUrl with
  | .ok _ => persistAndEnqueue jobId imageUrl
  | .error e =>
    if e.isValueError then .ret (errorResponse jobId 400 "disallowed_domain".toList e.str)
    else .raise e

/-- `submit_receipt` for the identifier `uuid4` drew. -/
def submitReceipt (jobId : Uuid) (imageUrl : Str) : Py Response :=
  Proc.tryCatch
    ((checkBackpressure cfg).bind fun _ => validateAndPersist cfg lib jobId imageUrl)
    fun e =>
      if e.isHTTPException then .raise e
      else .ret (errorResponse jobId 500 "internal_error".toList e.str)

/-- The status code of the answer a client gets. -/
def httpStatus : Except PyExc Response → Nat
  | .ok r => r.statusCode
  | .error (.httpException code _) => code
  | .error _ => 500

end InvoiceOcr
