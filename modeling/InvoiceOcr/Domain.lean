/-
  File:      InvoiceOcr/Domain.lean
  Subject:   STATUSES, EXCEPTIONS AND SETTINGS (src/domain, src/config).

  * `JobStatus` -- the enumeration of the same name;
  * `PyExc` -- every exception class the code names, those of src/domain/errors.py and those of
    the libraries it catches; the class hierarchy is the `is…` predicates, `str e` its text;
  * `Settings` -- the settings the modelled functions read, with their defaults, and the key
    formats computed from them;
  * `Uuid` -- `str(job_id)` and `UUID(text)`, and that the second undoes the first.
-/
import InvoiceOcr.Json.RoundTrip
import Mathlib.Data.Rat.Defs

namespace InvoiceOcr

open PyJson

abbrev Bytes := List UInt8

/-! ## 1. Job status -/

inductive JobStatus where
  | pending
  | processing
  | succeeded
  | failedPermanent
  | failedTransient
  deriving DecidableEq, Repr

/-- `status.value`. -/
def JobStatus.value : JobStatus → Str
  | .pending => "PENDING".toList
  | .processing => "PROCESSING".toList
  | .succeeded => "SUCCEEDED".toList
  | .failedPermanent => "FAILED_PERMANENT".toList
  | .failedTransient => "FAILED_TRANSIENT".toList

/-- `status in (SUCCEEDED, FAILED_PERMANENT, FAILED_TRANSIENT)`. -/
def JobStatus.isTerminal : JobStatus → Bool
  | .pending => false
  | .processing => false
  | .succeeded => true
  | .failedPermanent => true
  | .failedTransient => true

/-- `FAILED_PERMANENT` or `FAILED_TRANSIENT`. -/
def JobStatus.isFailed : JobStatus → Bool
  | .failedPermanent => true
  | .failedTransient => true
  | _ => false

theorem JobStatus.isTerminal_of_isFailed {s : JobStatus} (h : s.isFailed = true) :
    s.isTerminal = true := by
  cases s <;> first | rfl | cases h

/-! ## 2. Exceptions -/

inductive PyExc where
  -- src/domain/errors.py
  | permanentPipeline (errorCode message : Str)
  | rateLimitedLocally (errorCode message : Str)
  | geminiExhausted (message : Str)
  | tritonUnavailable (message : Str)
  | storageTransient (message : Str)
  | databaseUnavailable (message : Str)
  -- asyncpg
  | postgresError (message : Str)
  | interfaceError (message : Str)
  -- redis.exceptions
  | redisConnectionError (message : Str)
  | redisTimeoutError (message : Str)
  | redisError (message : Str)
  -- httpx
  | httpxConnectError (message : Str)
  | httpxReadTimeout (message : Str)
  | httpxConnectTimeout (message : Str)
  | httpxStatusError (message : Str)
  | httpxError (message : Str)
  -- google.genai.errors
  | genaiClientError (statusCode : Option Nat) (message : Str)
  | genaiServerError (message : Str)
  -- FastAPI, pydantic, Pillow, the standard library
  | httpException (statusCode : Nat) (errorCode : Str)
  | validationError (message : Str)
  | unidentifiedImage (message : Str)
  | osError (message : Str)
  | timeoutError (message : Str)
  | valueError (message : Str)
  | typeError (message : Str)
  | keyError (message : Str)
  | attributeError (message : Str)
  | exception (message : Str)
  deriving DecidableEq, Repr

namespace PyExc

/-- `isinstance(e, OCRSystemError)`. -/
def isOCRSystemError : PyExc → Bool
  | permanentPipeline _ _ => true
  | rateLimitedLocally _ _ => true
  | geminiExhausted _ => true
  | tritonUnavailable _ => true
  | storageTransient _ => true
  | databaseUnavailable _ => true
  | _ => false

def isPermanentPipelineError : PyExc → Bool
  | permanentPipeline _ _ => true
  | _ => false

def isRateLimitedLocallyError : PyExc → Bool
  | rateLimitedLocally _ _ => true
  | _ => false

def isGeminiExhaustedError : PyExc → Bool
  | geminiExhausted _ => true
  | _ => false

def isTritonUnavailableError : PyExc → Bool
  | tritonUnavailable _ => true
  | _ => false

def isStorageTransientError : PyExc → Bool
  | storageTransient _ => true
  | _ => false

def isDatabaseUnavailable : PyExc → Bool
  | databaseUnavailable _ => true
  | _ => false

/-- `OSError`; `UnidentifiedImageError` and, since 3.11, `asyncio.TimeoutError` are subclasses. -/
def isOSError : PyExc → Bool
  | osError _ => true
  | unidentifiedImage _ => true
  | timeoutError _ => true
  | _ => false

/-- The except-tuple of `_wrap_pg_errors`. -/
def isPgError (e : PyExc) : Bool :=
  match e with
  | postgresError _ => true
  | interfaceError _ => true
  | _ => e.isOSError

/-- `(RedisConnectionError, RedisTimeoutError)`. -/
def isRedisBlip : PyExc → Bool
  | redisConnectionError _ => true
  | redisTimeoutError _ => true
  | _ => false

/-- `RedisError`, the base of the two. -/
def isRedisError (e : PyExc) : Bool :=
  match e with
  | redisError _ => true
  | _ => e.isRedisBlip

/-- `(httpx.ConnectError, httpx.ReadTimeout, httpx.ConnectTimeout)`. -/
def isHttpxTransport : PyExc → Bool
  | httpxConnectError _ => true
  | httpxReadTimeout _ => true
  | httpxConnectTimeout _ => true
  | _ => false

/-- `httpx.HTTPError`. -/
def isHttpxError (e : PyExc) : Bool :=
  match e with
  | httpxStatusError _ => true
  | httpxError _ => true
  | _ => e.isHttpxTransport

def isHttpxStatusError : PyExc → Bool
  | httpxStatusError _ => true
  | _ => false

/-- `ValueError`; pydantic's `ValidationError` is a subclass. -/
def isValueError : PyExc → Bool
  | valueError _ => true
  | validationError _ => true
  | _ => false

def isHTTPException : PyExc → Bool
  | httpException _ _ => true
  | _ => false

/-- The class attribute `is_permanent`. -/
def isPermanent : PyExc → Bool
  | permanentPipeline _ _ => true
  | _ => false

/-- `e.error_code` of a domain error: the argument, else the class attribute. -/
def errorCode : PyExc → Str
  | permanentPipeline code _ => if code = [] then "ocr_system_error".toList else code
  | rateLimitedLocally code _ => if code = [] then "ocr_system_error".toList else code
  | geminiExhausted _ => "gemini_exhausted".toList
  | tritonUnavailable _ => "triton_unavailable".toList
  | storageTransient _ => "storage_transient".toList
  | databaseUnavailable _ => "database_unavailable".toList
  | _ => []

/-- The text an exception was raised with. -/
def text : PyExc → Str
  | permanentPipeline _ m => m
  | rateLimitedLocally _ m => m
  | geminiExhausted m => m
  | tritonUnavailable m => m
  | storageTransient m => m
  | databaseUnavailable m => m
  | postgresError m => m
  | interfaceError m => m
  | redisConnectionError m => m
  | redisTimeoutError m => m
  | redisError m => m
  | httpxConnectError m => m
  | httpxReadTimeout m => m
  | httpxConnectTimeout m => m
  | httpxStatusError m => m
  | httpxError m => m
  | genaiClientError _ m => m
  | genaiServerError m => m
  | httpException _ m => m
  | validationError m => m
  | unidentifiedImage m => m
  | osError m => m
  | timeoutError m => m
  | valueError m => m
  | typeError m => m
  | keyError m => m
  | attributeError m => m
  | exception m => m

/-- `e.message` of a domain error: the argument, else the error code. -/
def message (e : PyExc) : Str := if e.text = [] then e.errorCode else e.text

/-- `str(e)`: a domain error prints its code first (`OCRSystemError.__str__`). -/
def str (e : PyExc) : Str :=
  if e.isOCRSystemError then e.errorCode ++ ": ".toList ++ e.message else e.text

end PyExc

/-! ## 3. Settings -/

/-- The settings the modelled functions read. -/
structure Settings where
  imageDownloadMaxBytes : Nat := 10485760
  allowedImageDomains : List Str := ["img-campaign.gotit.vn".toList]
  workerConcurrency : Nat := 4
  redisPhashTtlSeconds : Nat := 86400
  redisRequeueTtlSeconds : Nat := 3600
  yoloConfidenceThreshold : Rat := 7 / 20
  yoloCropPadPercent : Rat := 1 / 50
  maxImageDimension : Nat := 1600
  geminiApiKey : Str := []
  geminiBackoffsSeconds : List Rat := [3 / 10, 6 / 10, 12 / 10]
  promptSemanticVersion : Str := "v3.7".toList
  staleProcessingMinutes : Nat := 15
  stalePendingMinutes : Nat := 30
  requeueMax : Nat := 3
  backpressureQueueReject : Nat := 500
  jobRetentionDays : Nat := 90

/-- `settings.phash_cache_key(phash)`. -/
def Settings.phashCacheKey (cfg : Settings) (phash : Str) : Str :=
  "ocr:phash:".toList ++ phash ++ ":psv:".toList ++ cfg.promptSemanticVersion

/-- A whole number as `str` prints it. -/
def natStr (n : Nat) : Str := Nat.toDigits 10 n

def intStr : Int → Str
  | .ofNat n => natStr n
  | .negSucc n => '-' :: natStr (n + 1)

/-- `settings.prompt_file_path()` below the directory `src`. -/
def Settings.promptFilePath (cfg : Settings) (sourceDir : Str) : Str :=
  sourceDir ++ "/pipeline/prompts/".toList ++ cfg.promptSemanticVersion ++ ".txt".toList

/-! ## 4. Job identifiers -/

/-- A UUID: 128 bits as 32 hexadecimal digits, the first the most significant. -/
structure Uuid where
  nibbles : List (Fin 16)
  length_eq : nibbles.length = 32
  deriving DecidableEq

namespace Uuid

/-- `u.hex`. -/
def hex (u : Uuid) : Str := u.nibbles.map fun n : Fin 16 => hexDigit n

/-- `str(u)`. -/
def str (u : Uuid) : Str :=
  u.hex.take 8 ++ '-' :: ((u.hex.drop 8).take 4 ++ '-' :: ((u.hex.drop 12).take 4 ++
    '-' :: ((u.hex.drop 16).take 4 ++ '-' :: u.hex.drop 20)))

/-- `text.replace(pat, '')` for a pattern that is not empty; `skip` counts the characters of a
    match still to drop. -/
def removeAll (pat : Str) : Nat → Str → Str
  | _, [] => []
  | skip + 1, _ :: r => removeAll pat skip r
  | 0, c :: r =>
    if pat.isPrefixOf (c :: r) then removeAll pat (pat.length - 1) r else c :: removeAll pat 0 r

def isBrace (c : Char) : Bool := c = '{' || c = '}'

/-- `text.strip('{}')`. -/
def stripBraces (s : Str) : Str := ((s.dropWhile isBrace).reverse.dropWhile isBrace).reverse

/-- The hexadecimal digits of a text, or nothing when one character is none. -/
def nibblesOf : Str → Option (List (Fin 16))
  | [] => some []
  | c :: r =>
    match hexValue c, nibblesOf r with
    | some n, some ns => some (Fin.ofNat 16 n :: ns)
    | _, _ => none

/-- `UUID(text)`; `none` is the `ValueError`. (`int(hex, 16)` also takes blanks, a sign, a prefix
    and underscores among the 32 characters; no identifier the code writes has any.) -/
def parse (s : Str) : Option Uuid :=
  let s := removeAll "uuid:".toList 0 (removeAll "urn:".toList 0 s)
  match nibblesOf ((stripBraces s).filter (· ≠ '-')) with
  | some ns => if h : ns.length = 32 then some ⟨ns, h⟩ else none
  | none => none

theorem hexDigit_plain : ∀ n : Fin 16, hexDigit n ≠ 'u' ∧ hexDigit n ≠ '-' ∧
    isBrace (hexDigit n) = false := by decide

/-- A character of a printed identifier. -/
def Plain (c : Char) : Prop := c ≠ 'u' ∧ isBrace c = false

theorem plain_hex {u : Uuid} {c : Char} (h : c ∈ u.hex) : Plain c := by
  obtain ⟨n, _, rfl⟩ := List.mem_map.mp h
  exact ⟨(hexDigit_plain n).1, (hexDigit_plain n).2.2⟩

theorem plain_str {u : Uuid} {c : Char} (h : c ∈ u.str) : Plain c := by
  have hdash : Plain '-' := ⟨by decide, rfl⟩
  simp only [str, List.mem_append, List.mem_cons] at h
  rcases h with h | rfl | h | rfl | h | rfl | h | rfl | h
  · exact plain_hex (List.mem_of_mem_take h)
  · exact hdash
  · exact plain_hex (List.mem_of_mem_drop (List.mem_of_mem_take h))
  · exact hdash
  · exact plain_hex (List.mem_of_mem_drop (List.mem_of_mem_take h))
  · exact hdash
  · exact plain_hex (List.mem_of_mem_drop (List.mem_of_mem_take h))
  · exact hdash
  · exact plain_hex (List.mem_of_mem_drop h)

/-- A pattern that opens with an absent character is not found. -/
theorem removeAll_absent {c : Char} {pat s : Str} (h : c ∉ s) : removeAll (c :: pat) 0 s = s := by
  induction s with
  | nil => rfl
  | cons d r ih =>
    simp only [List.mem_cons, not_or] at h
    have hne : (c == d) = false := beq_eq_false_iff_ne.mpr h.1
    simp only [removeAll, List.isPrefixOf, hne, Bool.false_and, Bool.false_eq_true, if_false]
    rw [ih h.2]

theorem dropWhile_none {p : Char → Bool} {s : Str} (h : ∀ c ∈ s, p c = false) :
    s.dropWhile p = s := by
  cases s with
  | nil => rfl
  | cons c r => simp only [List.dropWhile_cons, h c List.mem_cons_self, Bool.false_eq_true, if_false]

theorem stripBraces_none {s : Str} (h : ∀ c ∈ s, isBrace c = false) : stripBraces s = s := by
  simp only [stripBraces]
  rw [dropWhile_none h, dropWhile_none fun c hc => h c (List.mem_reverse.mp hc), List.reverse_reverse]

/-- Without its dashes a printed identifier is its digits. -/
theorem filter_str (u : Uuid) : u.str.filter (· ≠ '-') = u.hex := by
  have hkeep : ∀ {t : Str}, (∀ c ∈ t, c ∈ u.hex) → t.filter (· ≠ '-') = t := by
    intro t ht
    refine List.filter_eq_self.mpr fun c hc => ?_
    obtain ⟨n, _, rfl⟩ := List.mem_map.mp (ht c hc)
    exact decide_eq_true (hexDigit_plain n).2.1
  have h1 := List.take_append_drop 4 (u.hex.drop 16)
  have h2 := List.take_append_drop 4 (u.hex.drop 12)
  have h3 := List.take_append_drop 4 (u.hex.drop 8)
  have h4 := List.take_append_drop 8 u.hex
  rw [List.drop_drop] at h1 h2 h3
  have hcons : ∀ t : Str, ('-' :: t).filter (· ≠ '-') = t.filter (· ≠ '-') := fun t => rfl
  rw [str, List.filter_append, hcons, List.filter_append, hcons, List.filter_append, hcons,
    List.filter_append, hcons, hkeep fun c hc => List.mem_of_mem_take hc,
    hkeep fun c hc => List.mem_of_mem_drop (List.mem_of_mem_take hc),
    hkeep fun c hc => List.mem_of_mem_drop (List.mem_of_mem_take hc),
    hkeep fun c hc => List.mem_of_mem_drop (List.mem_of_mem_take hc),
    hkeep fun c hc => List.mem_of_mem_drop hc]
  rw [h1, h2, h3, h4]

theorem nibblesOf_hex : ∀ ns : List (Fin 16), nibblesOf (ns.map fun n : Fin 16 => hexDigit n) = some ns
  | [] => rfl
  | n :: ns => by
    have hn : hexValue (hexDigit n) = some n.val := hexValue_hexDigit n n.isLt
    simp only [List.map_cons, nibblesOf, hn, nibblesOf_hex ns, Fin.ofNat_val_eq_self]

/-- **`UUID(str(u)) == u`.** -/
theorem parse_str (u : Uuid) : parse u.str = some u := by
  have hu : 'u' ∉ u.str := fun h => (plain_str h).1 rfl
  have hb : ∀ c ∈ u.str, isBrace c = false := fun c h => (plain_str h).2
  have h1 : removeAll "urn:".toList 0 u.str = u.str := removeAll_absent hu
  have h2 : removeAll "uuid:".toList 0 u.str = u.str := removeAll_absent hu
  simp only [parse, h1, h2, stripBraces_none hb, filter_str]
  rw [show u.hex = u.nibbles.map fun n : Fin 16 => hexDigit n from rfl, nibblesOf_hex]
  simp only [u.length_eq, dif_pos]

theorem str_injective {u v : Uuid} (h : u.str = v.str) : u = v := by
  have hp := parse_str u
  rw [h, parse_str] at hp
  exact (Option.some.inj hp).symm

end Uuid

/-- `REDIS_REQUEUE_HASH_FMT.format(job_id=job_id)`. -/
def requeueKey (jobId : Uuid) : Str := "ocr:requeue:".toList ++ jobId.str

/-- `REDIS_REQUEUE_FIELD`. -/
def requeueField : Str := "count".toList

theorem requeueKey_injective {u v : Uuid} (h : requeueKey u = requeueKey v) : u = v :=
  Uuid.str_injective (List.append_cancel_left h)

end InvoiceOcr
