/-
  File:      InvoiceOcr/Pipeline.lean
  Subject:   THE PIPELINE STAGES (src/storage/http_client.py, src/pipeline/preprocessor.py,
             detector.py, triton_client.py, extractor.py).

  * `downloadImage` -- one GET with redirects followed, and its error mapping;
  * `preprocessImage` -- the image and its pHash;
  * `detectInvoice` -- letterbox, Triton, best box, crop, in exact arithmetic;
  * `extractInvoice` -- the Gemini retry loop, its branch after the loop included;
  * `onlyCalls_…`, `stage_…` -- what the stages call: each its own service, neither store.

  Timeouts appear as the exceptions they raise. The metrics of a stage are not modelled.
-/
import Mathlib.Algebra.Order.Ring.Unbundled.Rat
import InvoiceOcr.Storage

namespace InvoiceOcr

open PyJson Async

variable (cfg : Settings) (lib : Externals)

/-! ## 1. Download -/

/-- `response.has_redirect_location`: the URL to follow. -/
def HttpResponse.redirect? (resp : HttpResponse) : Option Str :=
  if resp.statusCode ∈ [301, 302, 303, 307, 308] then resp.location else none

/-- `client.get(url)` with `follow_redirects=True`: at most `fuel` redirects are followed. -/
def httpxGet : Nat → Str → Py HttpResponse
  | fuel, url => do
    let resp ← await (.request url)
    match resp.redirect? with
    | none => return resp
    | some location =>
      match fuel with
      | 0 => .raise (.httpxError "Exceeded maximum allowed redirects.".toList)
      | fuel + 1 => do
        let next ← .ofExcept (lib.redirectUrl url location)
        httpxGet fuel next

/-- `httpx`'s default `max_redirects`. -/
def maxRedirects : Nat := 20

def imageTooLargeError (url : Str) (size : Nat) : PyExc :=
  .permanentPipeline "image_too_large".toList
    ("Image at ".toList ++ url ++ " is ".toList ++ natStr size ++ " bytes, limit is ".toList ++
      natStr cfg.imageDownloadMaxBytes)

def imageDownloadError (url : Str) (statusCode : Nat) : PyExc :=
  .permanentPipeline "image_download_failed".toList
    ("HTTP ".toList ++ natStr statusCode ++ " downloading ".toList ++ url)

/-- The checks of `download_image` on a final response; `raise_for_status` refuses what is
    neither a success nor an error. -/
def checkResponse (url : Str) (resp : HttpResponse) : Except PyExc Bytes :=
  if 500 ≤ resp.statusCode then
    .error (.storageTransient
      ("CDN returned ".toList ++ natStr resp.statusCode ++ " for ".toList ++ url))
  else if 400 ≤ resp.statusCode then .error (imageDownloadError url resp.statusCode)
  else if ¬ (200 ≤ resp.statusCode ∧ resp.statusCode ≤ 299) then
    .error (.httpxStatusError (natStr resp.statusCode))
  else if cfg.imageDownloadMaxBytes < resp.content.length then
    .error (imageTooLargeError cfg url resp.content.length)
  else .ok resp.content

/-- The except clauses of `download_image`. -/
def mapDownloadError (url : Str) (e : PyExc) : PyExc :=
  if e.isHttpxTransport then
    .storageTransient ("CDN download failed for ".toList ++ url ++ ": ".toList ++ e.str)
  else if e.isHttpxError && !e.isHttpxStatusError then
    .storageTransient ("CDN download error for ".toList ++ url ++ ": ".toList ++ e.str)
  else e

/-- `download_image(url)`; `httpx` takes a URL that is no text as a type error. -/
def downloadImage (imageUrl : Json) : Py Bytes :=
  match imageUrl with
  | .str url =>
    Proc.tryCatch (do
        let resp ← httpxGet lib maxRedirects url
        .ofExcept (checkResponse cfg url resp))
      fun e => .raise (mapDownloadError url e)
  | _ => .raise (.typeError "Invalid type for url.".toList)

/-! ## 2. Preprocess -/

structure PreprocessResult where
  pil : Image
  phash : Str
  deriving DecidableEq, Repr

/-- `preprocess_image(raw)`. -/
def preprocessImage (raw : Bytes) : Except PyExc PreprocessResult := do
  let img ← match lib.openImage raw with
    | .ok img => .ok img
    | .error e =>
      .error (if e.isOSError then .permanentPipeline "truncated_upload".toList e.str else e)
  let img := (← lib.exifTranspose img).getD img
  let img ← if img.mode ≠ "RGB".toList then lib.convertRgb img else .ok img
  let img ←
    if cfg.maxImageDimension < max img.width img.height then
      lib.thumbnail img cfg.maxImageDimension
    else .ok img
  let phash ← lib.imagePhash img
  return ⟨img, phash⟩

/-! ## 3. Detect -/

/-- `round(x)`: to the nearest whole number, ties to the even one. -/
def pyRound (x : Rat) : Int :=
  let n := x.floor
  let r := x - n
  if r < 1 / 2 then n
  else if 1 / 2 < r then n + 1
  else if n % 2 = 0 then n else n + 1

/-- `_IMG_SIZE`. -/
def imgSize : Nat := 640

/-- Where a letterboxed image lies on its canvas. -/
structure Letterbox where
  scale : Rat
  newW : Int
  newH : Int
  padX : Int
  padY : Int
  deriving DecidableEq

/-- The numbers of `_letterbox` for an image of `w` by `h`, both positive. -/
def letterboxOf (w h : Nat) : Letterbox :=
  let scale : Rat := min ((imgSize : Rat) / w) ((imgSize : Rat) / h)
  let newW := pyRound (w * scale)
  let newH := pyRound (h * scale)
  ⟨scale, newW, newH, ((imgSize : Int) - newW) / 2, ((imgSize : Int) - newH) / 2⟩

/-- `_letterbox(img)`. -/
def letterbox (img : Image) : Except PyExc (Tensor × Letterbox) :=
  if img.width = 0 ∨ img.height = 0 then .error (.exception "division by zero".toList)
  else do
    let lb := letterboxOf img.width img.height
    let chw ← lib.letterboxed img lb.newW lb.newH lb.padX lb.padY
    return (chw, lb)

/-- `infer_yolo(batch)`. The output is read outside the `try`, and need not be there. -/
def inferYolo (batch : Tensor) : Py (Option Tensor) := do
  let resp ← Proc.tryCatch (await (.infer batch)) fun e =>
    .raise (.tritonUnavailable ("triton_infer_failed: ".toList ++ e.str))
  .ofExcept resp

/-- The first position of the largest number after `best`, which is at position `i`. -/
def argmaxFrom (best : Rat) (i : Nat) : Nat → List Rat → Nat × Rat
  | _, [] => (i, best)
  | j, x :: xs => if best < x then argmaxFrom x j (j + 1) xs else argmaxFrom best i (j + 1) xs

/-- `int(np.argmax(conf))` and the number there; an empty array has none. -/
def argmax : List Rat → Option (Nat × Rat)
  | [] => none
  | x :: xs => some (argmaxFrom x 0 1 xs)

/-- `str(out.shape)`. -/
def shapeText : List Nat → Str
  | [] => "()".toList
  | [n] => "(".toList ++ natStr n ++ ",)".toList
  | n :: ns => "(".toList ++ natStr n ++ ns.flatMap (fun k => ", ".toList ++ natStr k) ++ ")".toList

/-- A box in image coordinates. -/
structure Box where
  x1 : Rat
  y1 : Rat
  x2 : Rat
  y2 : Rat
  deriving DecidableEq

/-- The reverse letterbox of a prediction. -/
def Letterbox.reverse (lb : Letterbox) (cx cy bw bh : Rat) : Box :=
  ⟨(cx - bw / 2 - lb.padX) / lb.scale, (cy - bh / 2 - lb.padY) / lb.scale,
    (cx + bw / 2 - lb.padX) / lb.scale, (cy + bh / 2 - lb.padY) / lb.scale⟩

/-- The box grown by `YOLO_CROP_PAD_PERCENT`, rounded, clamped to the image. -/
def cropRect (w h : Nat) (b : Box) : Int × Int × Int × Int :=
  let padW := (b.x2 - b.x1) * cfg.yoloCropPadPercent
  let padH := (b.y2 - b.y1) * cfg.yoloCropPadPercent
  (max 0 (pyRound (b.x1 - padW)), max 0 (pyRound (b.y1 - padH)),
    min (w : Int) (pyRound (b.x2 + padW)), min (h : Int) (pyRound (b.y2 + padH)))

/-- Row `i` of the first item of a `(b, 5, n)` array. -/
def Tensor.pred (out : Tensor) (n i : Nat) : List Rat := (out.data.drop (i * n)).take n

/-- What `detect_invoice` makes of Triton's output. -/
def cropBest (img : Image) (lb : Letterbox) (out : Tensor) : Except PyExc Image :=
  match out.shape with
  | [b, 5, n] =>
    if b = 0 then .error (.exception "index 0 is out of bounds".toList)
    else
      match argmax (out.pred n 4) with
      | none => .error (.valueError "attempt to get argmax of an empty sequence".toList)
      | some (best, conf) =>
        if conf < cfg.yoloConfidenceThreshold then
          .error (.permanentPipeline "no_invoice_detected".toList
            ("best conf ".toList ++ lib.fixed3 conf ++ " < ".toList ++
              lib.floatText cfg.yoloConfidenceThreshold))
        else
          let at_ := fun i => (out.pred n i).getD best 0
          let (x1, y1, x2, y2) :=
            cropRect cfg img.width img.height (lb.reverse (at_ 0) (at_ 1) (at_ 2) (at_ 3))
          if x2 ≤ x1 ∨ y2 ≤ y1 then
            .error (.permanentPipeline "yolo_degenerate_box".toList
              ("box=(".toList ++ intStr x1 ++ ",".toList ++ intStr y1 ++ ",".toList ++ intStr x2 ++
                ",".toList ++ intStr y2 ++ ")".toList))
          else lib.crop img x1 y1 x2 y2
  | shape =>
    .error (.permanentPipeline "yolo_bad_output_shape".toList
      ("unexpected YOLO output shape: ".toList ++ shapeText shape))

/-- `detect_invoice(img)`. -/
def detectInvoice (img : Image) : Py Image := do
  let (batch, lb) ← .ofExcept (letterbox lib img)
  match ← inferYolo batch with
  | some out => .ofExcept (cropBest cfg lib img lb out)
  | none => .raise (.attributeError "'NoneType' object has no attribute 'ndim'".toList)

/-! ## 4. Extract -/

def loadSystemPrompt : Except PyExc Str :=
  let path := cfg.promptFilePath lib.sourceDir
  match lib.readFile path with
  | some text => .ok text
  | none =>
    .error (.permanentPipeline "prompt_missing".toList
      ("prompt file not found: ".toList ++ path ++ " (PSV=".toList ++ cfg.promptSemanticVersion ++
        ")".toList))

def getClient : Except PyExc Unit :=
  if cfg.geminiApiKey = [] then
    .error (.permanentPipeline "gemini_api_key_missing".toList
      "GEMINI_API_KEY env var is empty".toList)
  else .ok ()

/-- `response.text or ""`, validated. -/
def readResponse (text : Option Str) : Except PyExc InvoiceResult :=
  match InvoiceResult.modelValidateJson (text.getD []) with
  | .ok r => .ok r
  | .error e =>
    .error (.permanentPipeline "extractor_invalid_json".toList
      ("schema validation failed: ".toList ++ e.str))

/-- `status_code` as an f-string prints it. -/
def statusText : Option Nat → Str
  | some n => natStr n
  | none => "None".toList

/-- After a `ServerError` or a timeout: back off and go on with `again`, or give up. -/
def backOff (backoffs : List Rat) (e : PyExc) (attempt : Nat) (again : Py InvoiceResult) :
    Py InvoiceResult :=
  match backoffs[attempt]? with
  | some seconds => do
    let _ ← await (.sleep seconds)
    again
  | none =>
    .raise (.geminiExhausted
      ("after ".toList ++ natStr (attempt + 1) ++ " attempts: ".toList ++ e.str))

/-- The attempts that are left of `range(len(backoffs) + 1)`; `last` is `last_exc` as text. -/
def extractAttempts (backoffs : List Rat) (req : GenerateRequest) :
    List Nat → Str → Py InvoiceResult
  | [], last => .raise (.geminiExhausted ("unreachable; last=".toList ++ last))
  | attempt :: rest, _ =>
    (await (.generateContent req)).tryElse
      (fun e =>
        match e with
        | .genaiClientError status _ =>
          if status = some 429 then
            .raise (.rateLimitedLocally "gemini_rate_limited".toList "Gemini returned 429".toList)
          else
            .raise (.permanentPipeline "gemini_client_error".toList
              (statusText status ++ ": ".toList ++ e.str))
        | .genaiServerError _ => backOff backoffs e attempt (extractAttempts backoffs req rest e.str)
        | .timeoutError _ => backOff backoffs e attempt (extractAttempts backoffs req rest e.str)
        | _ => .raise e)
      fun text => .ofExcept (readResponse text)

/-- `extract_invoice(crop)`. -/
def extractInvoice (crop : Image) : Py InvoiceResult := do
  let systemInstruction ← .ofExcept (loadSystemPrompt cfg lib)
  let _ ← .ofExcept (getClient cfg)
  let jpegBytes ← .ofExcept (lib.encodeJpeg crop)
  extractAttempts cfg.geminiBackoffsSeconds ⟨systemInstruction, jpegBytes⟩
    (List.range (cfg.geminiBackoffsSeconds.length + 1)) "None".toList

/-! ## 5. Stages call services only -/

/-- The call is one of a pipeline stage. -/
def Op.IsStage (o : Op) : Prop := o.isStage = true

/-- A download makes requests only. -/
theorem onlyCalls_httpxGet {P : Op → Prop} (hP : ∀ url, P (.request url)) :
    ∀ (fuel : Nat) (url : Str), (httpxGet lib fuel url).OnlyCalls P
  | fuel, url => by
    unfold httpxGet
    refine onlyCalls_bind (onlyCalls_await (hP url)) fun resp => ?_
    cases resp.redirect? with
    | none => exact trivial
    | some location =>
      cases fuel with
      | zero => exact trivial
      | succ fuel =>
        exact onlyCalls_bind (onlyCalls_ofExcept _) fun next => onlyCalls_httpxGet hP fuel next

theorem onlyCalls_downloadImage {P : Op → Prop} (hP : ∀ url, P (.request url)) (imageUrl : Json) :
    (downloadImage cfg lib imageUrl).OnlyCalls P := by
  cases imageUrl with
  | str url =>
    refine onlyCalls_tryElse ?_ (fun _ => trivial) fun _ => trivial
    exact onlyCalls_bind (onlyCalls_httpxGet lib hP _ _) fun _ => onlyCalls_ofExcept _
  | _ => exact trivial

/-- A detection makes inferences only. -/
theorem onlyCalls_detectInvoice {P : Op → Prop} (hP : ∀ batch, P (.infer batch)) (img : Image) :
    (detectInvoice cfg lib img).OnlyCalls P := by
  have hinfer : ∀ batch, (inferYolo batch).OnlyCalls P := fun batch =>
    onlyCalls_bind (onlyCalls_mapped (hP batch) _) fun resp => onlyCalls_ofExcept resp
  refine onlyCalls_bind (onlyCalls_ofExcept _) fun lb => onlyCalls_bind (hinfer _) fun out => ?_
  cases out with
  | some out => exact onlyCalls_ofExcept _
  | none => exact trivial

section Extraction

variable {P : Op → Prop} (hgenerate : ∀ req, P (.generateContent req))
  (hsleep : ∀ seconds, P (.sleep seconds))

include hsleep in
theorem onlyCalls_backOff (backoffs : List Rat) (e : PyExc) (attempt : Nat)
    {again : Py InvoiceResult} (h : again.OnlyCalls P) :
    (backOff backoffs e attempt again).OnlyCalls P := by
  unfold backOff
  cases backoffs[attempt]? with
  | none => exact trivial
  | some seconds => exact onlyCalls_bind (onlyCalls_await (hsleep seconds)) fun _ => h

include hgenerate hsleep

theorem onlyCalls_extractAttempts (backoffs : List Rat) (req : GenerateRequest) :
    ∀ (attempts : List Nat) (last : Str),
      (extractAttempts backoffs req attempts last).OnlyCalls P
  | [], _ => trivial
  | attempt :: rest, _ => by
    refine onlyCalls_tryElse (onlyCalls_await (hgenerate req)) (fun e => ?_)
      fun _ => onlyCalls_ofExcept _
    split
    · split <;> exact trivial
    · exact onlyCalls_backOff hsleep _ _ _ (onlyCalls_extractAttempts backoffs req rest _)
    · exact onlyCalls_backOff hsleep _ _ _ (onlyCalls_extractAttempts backoffs req rest _)
    · exact trivial

/-- An extraction calls the model and waits between its attempts. -/
theorem onlyCalls_extractInvoice (crop : Image) : (extractInvoice cfg lib crop).OnlyCalls P := by
  refine onlyCalls_bind (onlyCalls_ofExcept _) fun _ => ?_
  refine onlyCalls_bind (onlyCalls_ofExcept _) fun _ => ?_
  refine onlyCalls_bind (onlyCalls_ofExcept _) fun _ => ?_
  exact onlyCalls_extractAttempts hgenerate hsleep _ _ _ _

end Extraction

theorem stage_downloadImage (imageUrl : Json) :
    (downloadImage cfg lib imageUrl).OnlyCalls Op.IsStage :=
  onlyCalls_downloadImage cfg lib (fun _ => rfl) imageUrl

/-- The calls of detection and extraction: Triton, Gemini and the waits between its attempts. -/
def Op.IsModel : Op → Prop
  | .infer _ => True
  | .generateContent _ => True
  | .sleep _ => True
  | _ => False

theorem Op.IsModel.isStage {o : Op} (h : o.IsModel) : o.IsStage := by
  cases o <;> first | exact rfl | exact h.elim

theorem model_detectInvoice (img : Image) : (detectInvoice cfg lib img).OnlyCalls Op.IsModel :=
  onlyCalls_detectInvoice cfg lib (fun _ => trivial) img

theorem model_extractInvoice (crop : Image) :
    (extractInvoice cfg lib crop).OnlyCalls Op.IsModel :=
  onlyCalls_extractInvoice cfg lib (fun _ => trivial) (fun _ => trivial) crop

theorem stage_detectInvoice (img : Image) : (detectInvoice cfg lib img).OnlyCalls Op.IsStage :=
  onlyCalls_mono (fun _ h => h.isStage) (model_detectInvoice cfg lib img)

theorem stage_extractInvoice (crop : Image) : (extractInvoice cfg lib crop).OnlyCalls Op.IsStage :=
  onlyCalls_mono (fun _ h => h.isStage) (model_extractInvoice cfg lib crop)

end InvoiceOcr
