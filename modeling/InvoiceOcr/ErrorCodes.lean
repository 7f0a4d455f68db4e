/-
  File:      InvoiceOcr/ErrorCodes.lean
  Subject:   WHAT A ROW MAY SAY. The texts that end up in the columns of a row, over all runs.

  * `permanentCodes`, `transientCodes` -- the codes that are written; the codes of a Triton, Gemini or
    CDN outage are not among them: such a job is requeued or orphaned;
  * `Told` -- the columns of a status: the dump of a postprocessed invoice, a code of the list;
  * `Foreign` -- libraries and services raise no exception of the program;
  * `keeps_…` -- one lemma per helper and stage: the writes tell, and what is raised past a stage is
    an outage of a store or foreign;
  * **`rows_tell`** -- RUN: in every reachable state every row tells what its status needs.
-/
import InvoiceOcr.Async.Effects
import InvoiceOcr.RowLife

namespace InvoiceOcr

open PyJson Async

/-! ## 1. What is written -/

/-- The codes of FAILED_PERMANENT rows. -/
def permanentCodes : List Str :=
  ["image_too_large".toList, "image_download_failed".toList, "truncated_upload".toList,
   "no_invoice_detected".toList, "yolo_degenerate_box".toList, "yolo_bad_output_shape".toList,
   "prompt_missing".toList, "gemini_api_key_missing".toList, "extractor_invalid_json".toList,
   "gemini_client_error".toList, "orphan_requeue_cap".toList]

/-- The codes of FAILED_TRANSIENT rows. -/
def transientCodes : List Str :=
  ["stale_timeout".toList, "storage_transient".toList, "database_unavailable".toList,
   "lifecycle_uncaught".toList]

/-- An invoice that some process has postprocessed. -/
def Postprocessed (D : Deployment) (final : InvoiceResult) : Prop :=
  ∃ p raw, (D.process p).postprocess raw = .ok final

/-- **What the columns tell beside a status.** -/
structure Told (D : Deployment) (status : JobStatus) (result : Option Dict)
    (errorCode errorMessage : Option Str) : Prop where
  succeeded : status = .succeeded → ∃ final, Postprocessed D final ∧ result = some final.modelDump
  failedPermanent : status = .failedPermanent →
    ∃ code ∈ permanentCodes, errorCode = some code ∧ errorMessage.isSome = true
  failedTransient : status = .failedTransient →
    ∃ code ∈ transientCodes, errorCode = some code ∧ errorMessage.isSome = true

/-- The columns of a row. -/
def JobRow.Tells (D : Deployment) (r : JobRow) : Prop :=
  Told D r.status r.result r.errorCode r.errorMessage

/-- The columns of a status write. -/
def JobSet.Tells (D : Deployment) (s : JobSet) : Prop :=
  Told D s.status s.result s.errorCode s.errorMessage

/-- A write that tells leaves a row that tells. -/
theorem tells_apply {D : Deployment} {set : JobSet} (h : set.Tells D) (now : Nat) (r : JobRow) :
    ((set.apply now).run r).Tells D where
  succeeded hst := by
    obtain ⟨final, hpost, hres⟩ := h.succeeded hst
    exact ⟨final, hpost, by simp [JobSet.apply, hres]⟩
  failedPermanent hst := by
    obtain ⟨code, hmem, hcode, hmsg⟩ := h.failedPermanent hst
    exact ⟨code, hmem, by simp [JobSet.apply, hcode], by simp [JobSet.apply, hmsg]⟩
  failedTransient hst := by
    obtain ⟨code, hmem, hcode, hmsg⟩ := h.failedTransient hst
    exact ⟨code, hmem, by simp [JobSet.apply, hcode], by simp [JobSet.apply, hmsg]⟩

section Sets

variable {D : Deployment}

theorem tells_processing : processingSet.Tells D := ⟨nofun, nofun, nofun⟩

theorem tells_phash (phash : Str) : (phashSet phash).Tells D := ⟨nofun, nofun, nofun⟩

theorem tells_success {final : InvoiceResult} (h : Postprocessed D final) :
    (successSet final).Tells D :=
  ⟨fun _ => ⟨final, h, rfl⟩, nofun, nofun⟩

theorem tells_permanent {code : Str} (h : code ∈ permanentCodes) (msg : Str) :
    (failSet true code msg).Tells D :=
  ⟨nofun, fun _ => ⟨code, h, rfl, rfl⟩, nofun⟩

theorem tells_transient {code : Str} (h : code ∈ transientCodes) (msg : Str) :
    (failSet false code msg).Tells D :=
  ⟨nofun, nofun, fun _ => ⟨code, h, rfl, rfl⟩⟩

end Sets

/-! ## 2. What is raised -/

/-- **Libraries and services raise no exception of the program.** -/
def Foreign (o : Op) (r : Except PyExc (Ans o)) : Prop :=
  match o, r with
  | .infer _, .ok (.error e) => e.isOCRSystemError = false
  | _, .error e => e.isOCRSystemError = false
  | _, _ => True

theorem foreign_error {o : Op} {e : PyExc} (h : Foreign o (.error e)) : e.isOCRSystemError = false := by
  cases o <;> exact h

/-- The same of the libraries that do not await, and of the postprocessing. -/
structure Deployment.Foreign (D : Deployment) : Prop where
  redirectUrl : ∀ url location e, D.lib.redirectUrl url location = .error e → e.isOCRSystemError = false
  openImage : ∀ raw e, D.lib.openImage raw = .error e → e.isOCRSystemError = false
  exifTranspose : ∀ img e, D.lib.exifTranspose img = .error e → e.isOCRSystemError = false
  convertRgb : ∀ img e, D.lib.convertRgb img = .error e → e.isOCRSystemError = false
  thumbnail : ∀ img n e, D.lib.thumbnail img n = .error e → e.isOCRSystemError = false
  imagePhash : ∀ img e, D.lib.imagePhash img = .error e → e.isOCRSystemError = false
  letterboxed : ∀ img a b c d e, D.lib.letterboxed img a b c d = .error e → e.isOCRSystemError = false
  crop : ∀ img a b c d e, D.lib.crop img a b c d = .error e → e.isOCRSystemError = false
  encodeJpeg : ∀ img e, D.lib.encodeJpeg img = .error e → e.isOCRSystemError = false
  postprocess : ∀ p raw e, (D.process p).postprocess raw = .error e → e.isOCRSystemError = false

/-- An exception that no stage has a branch for: foreign, or an outage of a store. -/
def Loose (e : PyExc) : Prop :=
  e.isOCRSystemError = false ∨ e.isStorageTransientError = true ∨ e.isDatabaseUnavailable = true

/-- What leaves a stage function whose caller handles `handled` besides the permanent errors. -/
def Staged (handled : PyExc → Bool) (e : PyExc) : Prop :=
  (∃ code msg, e = .permanentPipeline code msg ∧ code ∈ permanentCodes) ∨ handled e = true ∨ Loose e

/-- A code of the list is what `e.error_code` gives. -/
theorem errorCode_permanent {code : Str} (h : code ∈ permanentCodes) (msg : Str) :
    (PyExc.permanentPipeline code msg).errorCode = code := by
  have hne : code ≠ [] := by
    rintro rfl
    exact absurd h (by decide)
  show (if code = [] then _ else code) = code
  rw [if_neg hne]

theorem staged_permanent {handled : PyExc → Bool} {code : Str} (h : code ∈ permanentCodes) (msg : Str) :
    Staged handled (.permanentPipeline code msg) :=
  Or.inl ⟨code, msg, rfl, h⟩

theorem staged_foreign {handled : PyExc → Bool} {e : PyExc} (h : e.isOCRSystemError = false) :
    Staged handled e :=
  Or.inr (Or.inr (Or.inl h))

/-- What a caller's `except PermanentPipelineError` gets. -/
theorem Staged.code {handled : PyExc → Bool} {e : PyExc} (h : Staged handled e)
    (hh : ∀ e, handled e = true → e.isPermanentPipelineError = false)
    (he : e.isPermanentPipelineError = true) : e.errorCode ∈ permanentCodes := by
  rcases h with ⟨code, msg, rfl, hmem⟩ | h | h
  · rw [errorCode_permanent hmem]
    exact hmem
  · rw [hh e h] at he
    cases he
  · cases e <;> first | (cases he; done) | (rcases h with h | h | h <;> cases h)

theorem not_permanent_of_storage {e : PyExc} (h : e.isStorageTransientError = true) :
    e.isPermanentPipelineError = false := by
  cases e <;> first | rfl | cases h

theorem not_permanent_of_triton {e : PyExc} (h : e.isTritonUnavailableError = true) :
    e.isPermanentPipelineError = false := by
  cases e <;> first | rfl | cases h

/-- The exceptions of an extraction that its caller requeues on. -/
def isBusy (e : PyExc) : Bool := e.isRateLimitedLocallyError || e.isGeminiExhaustedError

theorem not_permanent_of_busy {e : PyExc} (h : isBusy e = true) :
    e.isPermanentPipelineError = false := by
  cases e <;> first | rfl | cases h

/-- What passes all of a caller's clauses. -/
theorem Staged.loose {handled : PyExc → Bool} {e : PyExc} (h : Staged handled e)
    (he : e.isPermanentPipelineError = false) (hn : handled e = false) : Loose e := by
  rcases h with ⟨code, msg, rfl, _⟩ | h | h
  · cases he
  · rw [hn] at h
    cases h
  · exact h

/-! ## 3. The helpers -/

/-- The status writes among the calls tell. -/
def WriteTells (D : Deployment) (o : Op) : Prop := ∀ j set, o = .updateJob j set → set.Tells D

/-- A call that is no status write. -/
def Op.isUpdate : Op → Bool
  | .updateJob _ _ => true
  | _ => false

theorem writeTells_of {D : Deployment} {o : Op} (h : o.isUpdate = false) : WriteTells D o := by
  intro j set he
  subst he
  cases h

/-- On foreign answers the writes of the body tell, and it raises in `P` only. -/
abbrev Keeps (D : Deployment) {α : Type} (P : PyExc → Prop) (p : Py α) : Prop :=
  Bounded (WriteTells D) Foreign P p

section Helpers

variable {D : Deployment} {j : Uuid} {v : Json} {cfg : Settings}

theorem keeps_pg {o : Op} (ho : WriteTells D o) : Keeps D Loose (wrapPgErrors (await o)) := by
  refine bounded_mapped ho fun e he => ?_
  have hforeign := foreign_error he
  split
  · exact Or.inr (Or.inr rfl)
  · exact Or.inl hforeign

theorem keeps_redis {o : Op} (ho : WriteTells D o) (what : Str) :
    Keeps D Loose (wrapRedisErrors what (await o)) := by
  refine bounded_mapped ho fun e he => ?_
  have hforeign := foreign_error he
  split
  · exact Or.inr (Or.inl rfl)
  · exact Or.inl hforeign

theorem keeps_update {set : JobSet} (h : set.Tells D) : Keeps D Loose (updateJobStatus j set) :=
  keeps_pg fun _ _ he => by cases he; exact h

/-- `_fail` raises nothing. -/
theorem keeps_fail {P : PyExc → Prop} {isPermanent : Bool} {code msg : Str}
    (h : (failSet isPermanent code msg).Tells D) : Keeps D P (fail j isPermanent code msg) :=
  bounded_tryCatch (keeps_update h) fun _ _ => bounded_ret ()

theorem keeps_yield : Keeps D Loose (yieldToQueue j v) :=
  bounded_bind (keeps_pg (writeTells_of rfl)) fun _ => keeps_redis (writeTells_of rfl) _

theorem keeps_orphan {P : PyExc → Prop} : Keeps D P (orphan cfg j) :=
  keeps_fail (tells_permanent (by decide) _)

theorem keeps_bump : Keeps D Loose (bumpRequeueCounter cfg j) := by
  refine bounded_tryCatch (P := fun e => e.isOCRSystemError = false) ?_ fun e he => ?_
  · refine bounded_bind (bounded_await (writeTells_of rfl) fun e he => foreign_error he) fun count => ?_
    split
    · exact bounded_bind (bounded_await (writeTells_of rfl) fun e he => foreign_error he) fun _ => bounded_ret _
    · exact bounded_bind (bounded_ret _) fun _ => bounded_ret _
  · refine bounded_raise ?_
    split
    · exact Or.inr (Or.inl rfl)
    · exact Or.inl he

theorem keeps_requeue : Keeps D Loose (requeueCounted cfg j v) := by
  refine bounded_bind (bounded_tryElse keeps_bump (fun count => ?_) fun e he => ?_) fun c => ?_
  · split
    · exact bounded_bind keeps_orphan fun _ => bounded_ret _
    · exact bounded_ret _
  · split
    · exact bounded_bind keeps_yield fun _ => bounded_ret _
    · exact bounded_raise he
  · cases c with
    | none => exact bounded_ret ()
    | some count => exact keeps_yield

/-- `except PermanentPipelineError`. -/
theorem keeps_failPermanent {P : PyExc → Prop} {e : PyExc} (h : e.errorCode ∈ permanentCodes) :
    Keeps D P (failPermanent j e) :=
  keeps_fail (tells_permanent h _)

end Helpers

/-! ## 4. The stage functions -/

section Stages

variable {D : Deployment} {cfg : Settings} (hD : D.Foreign)

include hD

theorem keeps_httpxGet : ∀ (fuel : Nat) (url : Str),
    Keeps D (fun e => e.isOCRSystemError = false) (httpxGet D.lib fuel url)
  | fuel, url => by
    unfold httpxGet
    refine bounded_bind (bounded_await (writeTells_of rfl) fun e he => foreign_error he) fun resp => ?_
    cases resp.redirect? with
    | none => exact bounded_ret _
    | some location =>
      cases fuel with
      | zero => exact bounded_raise rfl
      | succ fuel =>
        exact bounded_bind (bounded_ofExcept fun e he => hD.redirectUrl _ _ e he) fun next =>
          keeps_httpxGet fuel next

/-- `download_image`: permanent, a transient error of the CDN, or foreign. -/
theorem keeps_download (v : Json) :
    Keeps D (Staged PyExc.isStorageTransientError) (downloadImage cfg D.lib v) := by
  cases v with
  | str url =>
    refine bounded_tryCatch (P := Staged PyExc.isStorageTransientError) ?_ fun e he => ?_
    · refine bounded_bind (bounded_mono (fun _ h => staged_foreign h) (keeps_httpxGet hD _ _))
        fun resp => bounded_ofExcept fun e he => ?_
      unfold checkResponse at he
      split at he
      · cases he
        exact Or.inr (Or.inl rfl)
      · split at he
        · cases he
          exact staged_permanent (by decide) _
        · split at he
          · cases he
            exact staged_foreign rfl
          · split at he
            · cases he
              exact staged_permanent (by decide) _
            · cases he
    · refine bounded_raise ?_
      unfold mapDownloadError
      split
      · exact Or.inr (Or.inl rfl)
      · split
        · exact Or.inr (Or.inl rfl)
        · exact he
  | _ => exact bounded_raise (staged_foreign rfl)

/-- The resize and the pHash. -/
theorem foreign_hashed {img : Image} {e : PyExc}
    (h : (D.lib.imagePhash img >>= fun phash => .ok (⟨img, phash⟩ : PreprocessResult)) = .error e) :
    e.isOCRSystemError = false := by
  rcases bind_eq_error h with hphash | ⟨phash, _, h⟩
  · exact hD.imagePhash _ _ hphash
  · cases h

theorem foreign_resized {img : Image} {e : PyExc}
    (h : (if cfg.maxImageDimension < max img.width img.height then
        D.lib.thumbnail img cfg.maxImageDimension >>= fun img =>
          D.lib.imagePhash img >>= fun phash => .ok (⟨img, phash⟩ : PreprocessResult)
      else .ok img >>= fun img =>
        D.lib.imagePhash img >>= fun phash => .ok ⟨img, phash⟩) = .error e) :
    e.isOCRSystemError = false := by
  split at h
  · rcases bind_eq_error h with hsmall | ⟨small, _, h⟩
    · exact hD.thumbnail _ _ _ hsmall
    · exact foreign_hashed hD h
  · exact foreign_hashed hD h

/-- `preprocess_image`: permanent or foreign. -/
theorem staged_preprocess {raw : Bytes} {e : PyExc} (h : preprocessImage cfg D.lib raw = .error e) :
    Staged (fun _ => false) e := by
  unfold preprocessImage at h
  cases hopen : D.lib.openImage raw with
  | error x =>
    rw [hopen] at h
    have hx : (if x.isOSError then .permanentPipeline "truncated_upload".toList x.str else x) = e := by
      cases h
      rfl
    subst hx
    split
    · exact staged_permanent (by decide) _
    · exact staged_foreign (hD.openImage raw x hopen)
  | ok img =>
    rw [hopen] at h
    refine staged_foreign ?_
    rcases bind_eq_error (x := D.lib.exifTranspose img) h with hexif | ⟨turned, _, h⟩
    · exact hD.exifTranspose _ _ hexif
    simp only at h
    split at h
    · rcases bind_eq_error h with hrgb | ⟨rgb, _, h⟩
      · exact hD.convertRgb _ _ hrgb
      · exact foreign_resized hD h
    · exact foreign_resized hD h

theorem staged_cropBest {img : Image} {lb : Letterbox} {out : Tensor} {e : PyExc}
    (h : cropBest cfg D.lib img lb out = .error e) : Staged PyExc.isTritonUnavailableError e := by
  unfold cropBest at h
  split at h
  · split at h
    · cases h
      exact staged_foreign rfl
    · split at h
      · cases h
        exact staged_foreign rfl
      · split at h
        · cases h
          exact staged_permanent (by decide) _
        · simp only at h
          split at h
          · cases h
            exact staged_permanent (by decide) _
          · exact staged_foreign (hD.crop _ _ _ _ _ _ h)
  · cases h
    exact staged_permanent (by decide) _

/-- `detect_invoice`: permanent, Triton's outage, or foreign. -/
theorem keeps_detect (img : Image) :
    Keeps D (Staged PyExc.isTritonUnavailableError) (detectInvoice cfg D.lib img) := by
  refine bounded_bind (bounded_ofExcept fun e he => ?_) fun lb => bounded_bind ?_ fun out => ?_
  · unfold letterbox at he
    split at he
    · cases he
      exact staged_foreign rfl
    · rcases bind_eq_error he with hlb | ⟨chw, _, he⟩
      · exact staged_foreign (hD.letterboxed _ _ _ _ _ _ hlb)
      · cases he
  · -- Triton's answer is read outside the `try`
    refine (wp_bind _ _ _).mpr ((wp_tryCatch _ _ _).mpr ((wp_await _ _).mpr ⟨writeTells_of rfl, fun r hr => ?_⟩))
    cases r with
    | error x =>
      intro e he
      cases he
      exact Or.inr (Or.inl rfl)
    | ok reply =>
      refine (wp_ofExcept reply ()).mpr fun e he => ?_
      subst he
      exact staged_foreign hr
  · cases out with
    | some out => exact bounded_ofExcept fun e he => staged_cropBest hD he
    | none => exact bounded_raise (staged_foreign rfl)

omit hD in
theorem keeps_backOff {backoffs : List Rat} {e : PyExc} {attempt : Nat} {again : Py InvoiceResult}
    (h : Keeps D (Staged isBusy) again) : Keeps D (Staged isBusy) (backOff backoffs e attempt again) := by
  unfold backOff
  cases backoffs[attempt]? with
  | none => exact bounded_raise (Or.inr (Or.inl rfl))
  | some seconds =>
    exact bounded_bind (bounded_await (writeTells_of rfl) fun e he => staged_foreign (foreign_error he)) fun _ => h

omit hD in
theorem keeps_attempts (backoffs : List Rat) (req : GenerateRequest) :
    ∀ (attempts : List Nat) (last : Str),
      Keeps D (Staged isBusy) (extractAttempts backoffs req attempts last)
  | [], _ => bounded_raise (Or.inr (Or.inl rfl))
  | attempt :: rest, _ => by
    refine bounded_tryElse (bounded_await (writeTells_of rfl) fun e he => foreign_error he) (fun text => ?_)
      fun e he => ?_
    · refine bounded_ofExcept fun e he => ?_
      unfold readResponse at he
      split at he
      · cases he
      · cases he
        exact staged_permanent (by decide) _
    · split
      · split
        · exact bounded_raise (Or.inr (Or.inl rfl))
        · exact bounded_raise (staged_permanent (by decide) _)
      · exact keeps_backOff (keeps_attempts backoffs req rest _)
      · exact keeps_backOff (keeps_attempts backoffs req rest _)
      · exact bounded_raise (staged_foreign he)

/-- `extract_invoice`: permanent, rate limited, exhausted, or foreign. -/
theorem keeps_extract (crop : Image) :
    Keeps D (Staged isBusy) (extractInvoice cfg D.lib crop) := by
  refine bounded_bind (bounded_ofExcept fun e he => ?_) fun _ => bounded_bind
    (bounded_ofExcept fun e he => ?_) fun _ => bounded_bind (bounded_ofExcept fun e he => ?_)
    fun _ => keeps_attempts _ _ _ _
  · simp only [loadSystemPrompt] at he
    split at he
    · cases he
    · cases he
      exact staged_permanent (by decide) _
  · unfold getClient at he
    split at he
    · cases he
      exact staged_permanent (by decide) _
    · cases he
  · exact staged_foreign (hD.encodeJpeg _ _ he)

end Stages

/-! ## 5. The lifecycle -/

section Lifecycle

variable {D : Deployment} (hD : D.Foreign) {p : Nat} {j : Uuid} {v : Json}

include hD

theorem keeps_finish (rawInvoice : InvoiceResult) :
    Keeps D Loose (finish (D.worker p) j v rawInvoice) := by
  unfold finish
  cases hpost : (D.worker p).postprocess rawInvoice with
  | error e => exact bounded_raise (Or.inl (hD.postprocess p rawInvoice e hpost))
  | ok final =>
    refine bounded_tryCatch (keeps_update (tells_success ⟨p, rawInvoice, hpost⟩)) fun e he => ?_
    split
    · exact keeps_yield
    · exact bounded_raise he

theorem keeps_extractStage (phash : Str) (crop : Image) :
    Keeps D Loose (extractStage (D.worker p) j v phash crop) := by
  refine bounded_tryElse (keeps_extract hD crop) (fun rawInvoice => ?_) fun e he => ?_
  · exact bounded_bind (bounded_suppress (keeps_redis (writeTells_of rfl) _)) fun _ =>
      keeps_finish hD rawInvoice
  · split
    · exact keeps_yield
    · next hlimited =>
      split
      · exact keeps_requeue
      · next hexhausted =>
        split
        · next hperm => exact keeps_failPermanent (he.code (fun _ h => not_permanent_of_busy h) hperm)
        · next hperm =>
          refine bounded_raise (he.loose (by simpa using hperm) ?_)
          simp only [isBusy, hlimited, hexhausted, Bool.or_self]

theorem keeps_acquireStage (phash : Str) (crop : Image) :
    Keeps D Loose (acquireStage (D.worker p) j v phash crop) := by
  refine bounded_bind (bounded_await (writeTells_of rfl) fun e he => Or.inl (foreign_error he))
    fun granted => ?_
  split
  · exact keeps_extractStage hD phash crop
  · exact keeps_yield

theorem keeps_detectStage (pp : PreprocessResult) :
    Keeps D Loose (detectStage (D.worker p) j v pp) := by
  refine bounded_tryElse (keeps_detect hD pp.pil) (fun crop => keeps_acquireStage hD _ crop)
    fun e he => ?_
  split
  · next hperm => exact keeps_failPermanent (he.code (fun _ h => not_permanent_of_triton h) hperm)
  · next hperm =>
    split
    · exact keeps_requeue
    · next hdown => exact bounded_raise (he.loose (by simpa using hperm) (by simpa using hdown))

theorem keeps_cacheStage (pp : PreprocessResult) :
    Keeps D Loose (cacheStage (D.worker p) j v pp) := by
  refine bounded_bind (bounded_suppress ?_) fun cachedRaw => ?_
  · refine bounded_bind (keeps_redis (writeTells_of rfl) _) fun val => ?_
    cases val <;> exact bounded_ret _
  · split
    · exact keeps_finish hD _
    · exact keeps_detectStage hD pp

theorem keeps_phashStage (record : JobRow) (pp : PreprocessResult) :
    Keeps D Loose (phashStage (D.worker p) j v record pp) := by
  unfold phashStage
  split
  · exact bounded_bind (bounded_suppress (keeps_update (tells_phash _))) fun _ =>
      keeps_cacheStage hD pp
  · exact keeps_cacheStage hD pp

theorem keeps_preprocessStage (record : JobRow) (raw : Bytes) :
    Keeps D Loose (preprocessStage (D.worker p) j v record raw) := by
  refine bounded_tryElse (bounded_ofExcept fun e he => staged_preprocess hD he)
    (fun pp => keeps_phashStage hD record pp) fun e he => ?_
  split
  · next hperm => exact keeps_failPermanent (he.code (fun _ h => by cases h) hperm)
  · next hperm => exact bounded_raise (he.loose (by simpa using hperm) rfl)

theorem keeps_downloadStage (record : JobRow) :
    Keeps D Loose (downloadStage (D.worker p) j v record) := by
  refine bounded_tryElse (keeps_download hD v) (fun raw => keeps_preprocessStage hD record raw)
    fun e he => ?_
  split
  · next hperm => exact keeps_failPermanent (he.code (fun _ h => not_permanent_of_storage h) hperm)
  · next hperm =>
    split
    · exact keeps_requeue
    · next hdown => exact bounded_raise (he.loose (by simpa using hperm) (by simpa using hdown))

theorem keeps_body : Keeps D Loose (lifecycleBody (D.worker p) j v) := by
  have hyield : ∀ e, Loose e → Keeps D Loose
      (if e.isDatabaseUnavailable then yieldToQueue j v else .raise e) := by
    intro e he
    split
    · exact keeps_yield
    · exact bounded_raise he
  refine bounded_tryElse (keeps_pg (writeTells_of rfl)) (fun row => ?_) hyield
  cases row with
  | none => exact bounded_ret _
  | some record =>
    simp only
    split
    · exact bounded_ret _
    · exact bounded_tryElse (keeps_update tells_processing)
        (fun _ => keeps_downloadStage hD record) hyield

omit hD in
/-- What is left for the catch-all handlers is an outage of a store or foreign. -/
theorem keeps_handler {P : PyExc → Prop} {e : PyExc} (he : Loose e) :
    Keeps D P (lifecycleHandler j e) := by
  unfold lifecycleHandler
  rcases he with he | he | he
  · rw [he]
    exact bounded_tryCatch (P := fun _ => False) (keeps_fail (tells_transient (by decide) _))
      fun _ h => h.elim
  · have hcode : "storage_transient".toList ∈ transientCodes := by decide
    cases e with
    | storageTransient m => exact keeps_fail (tells_transient hcode _)
    | _ => cases he
  · have hcode : "database_unavailable".toList ∈ transientCodes := by decide
    cases e with
    | databaseUnavailable m => exact keeps_fail (tells_transient hcode _)
    | _ => cases he

theorem keeps_lifecycle {P : PyExc → Prop} :
    Keeps D P (executeTaskLifecycle (D.worker p) j v) :=
  bounded_tryCatch (keeps_body hD) fun _ he => keeps_handler he

end Lifecycle

/-! ## 6. Every task, every row -/

section Runs

variable {D : Deployment} {w₀ : World} {tr : SysTrace} {s : SysState}

theorem keeps_submit (lib : Externals) (cfg : Settings) (j : Uuid) (u : Str) :
    Keeps D (fun _ => True) (submitReceipt cfg lib j u) := by
  refine bounded_tryCatch (P := fun _ => True) ?_ fun e _ => ?_
  · refine bounded_bind ?_ fun _ => ?_
    · refine bounded_tryElse (P := fun _ => True) (bounded_mapped (writeTells_of rfl) fun _ _ => trivial)
        (fun depth => ?_) fun _ _ => bounded_ret _
      split
      · exact bounded_raise trivial
      · exact bounded_ret _
    · unfold validateAndPersist
      split
      · refine bounded_tryElse (P := fun _ => True)
          (bounded_mapped (writeTells_of rfl) fun _ _ => trivial) (fun _ => ?_) fun e _ => ?_
        · refine bounded_tryElse (P := fun _ => True)
            (bounded_mapped (writeTells_of rfl) fun _ _ => trivial) (fun _ => bounded_ret _) fun e _ => ?_
          split
          · exact bounded_ret _
          · exact bounded_raise trivial
        · split
          · exact bounded_ret _
          · exact bounded_raise trivial
      · split
        · exact bounded_ret _
        · exact bounded_raise trivial
  · split
    · exact bounded_raise trivial
    · exact bounded_ret _

theorem keeps_sweepRows : ∀ (rows : List JobRow) (n : Nat), Keeps D Loose (sweepRows rows n)
  | [], _ => bounded_ret _
  | _ :: rs, n => bounded_tryElse (P := Loose) (keeps_fail (tells_transient (by decide) _))
      (fun _ => keeps_sweepRows rs (n + 1)) fun _ _ => keeps_sweepRows rs n

/-- Every task of the system writes only what tells. -/
theorem keeps_boot (hD : D.Foreign) (n : TaskName) : Keeps D (fun _ => True) (D.boot n) := by
  cases n with
  | worker p =>
    refine bounded_bind (bounded_tryElse (P := fun _ => True)
      (bounded_await (writeTells_of rfl) fun _ _ => trivial) (fun val => ?_) fun e _ => ?_) fun msg => ?_
    · cases val with
      | none => exact bounded_ret _
      | some val =>
        show Bounded _ _ _ (loadsWithin jsonDepth val)
        unfold loadsWithin
        split
        · exact bounded_raise trivial
        · exact bounded_ret _
    · split
      · exact bounded_ret _
      · split <;> exact bounded_raise trivial
    · cases msg with
      | none => exact bounded_ret _
      | some msg =>
        refine bounded_tryCatch (P := fun _ => True) ?_ fun _ _ => bounded_ret _
        exact bounded_bind (bounded_ofExcept fun _ _ => trivial) fun m => keeps_lifecycle hD
  | submit j u => exact bounded_bind (keeps_submit D.lib D.cfg j u) fun _ => bounded_ret _
  | sweep =>
    refine bounded_tryElse (P := Loose) ?_ (fun _ => bounded_ret _) fun _ _ => bounded_ret _
    exact bounded_bind (keeps_pg (writeTells_of rfl)) fun rows => keeps_sweepRows rows 0
  | purge =>
    exact bounded_tryElse (keeps_pg (writeTells_of rfl)) (fun _ => bounded_ret _) fun _ _ =>
      bounded_ret _

/-- Every row tells what its status needs. -/
def World.Tells (D : Deployment) (w : World) : Prop := ∀ j r, w.jobs.find j = some r → r.Tells D

/-- STEP: a call whose write tells keeps rows that tell. -/
theorem tells_sem {w w' : World} {o : Op} {x : Except PyExc (Ans o)} (hsem : Sem w o x w')
    (hpending : ∀ j status u, o = .insertJob j status u → status = .pending)
    (hwrite : WriteTells D o) (h : w.Tells D) : w'.Tells D := by
  intro j r hrow
  have hchange := rowChange_of_sem hsem j
  cases hchange with
  | same he => exact h j r (he ▸ hrow)
  | @inserted status u _ he =>
    cases Option.some.inj (he.symm.trans hrow)
    cases hpending j status u rfl
    exact ⟨nofun, nofun, nofun⟩
  | @updated set he =>
    obtain ⟨old, _, rfl⟩ := Option.map_eq_some_iff.mp (he.symm.trans hrow)
    exact tells_apply (hwrite j set rfl) _ old
  | touched he =>
    obtain ⟨old, hold, rfl⟩ := Option.map_eq_some_iff.mp (he.symm.trans hrow)
    exact h j old hold
  | purged he => exact h j r (Option.filter_eq_some_iff.mp (he.symm.trans hrow)).1

/-- **Every row tells what its status needs**, in every reachable state: a SUCCEEDED row the dump of a
    postprocessed invoice, a FAILED one a code of its list and a message. -/
theorem rows_tell (hD : D.Foreign) (h : D.sys.Run w₀ tr s) (h₀ : w₀.Tells D)
    (hforeign : ∀ e ∈ tr, AnswersIn Foreign e.2) : s.world.Tells D := by
  induction h with
  | start => exact h₀
  | @step tr s s' l h hs ih =>
    have hpast := fun e he => hforeign e (List.mem_cons_of_mem _ he)
    have htells := ih hpast
    have hob := D.protocol.obeyed_of_run (fun _ _ _ => trivial) h
    cases hs with
    | spawn ha => exact htells
    | drift hd => exact fun j r hrow => htells j r (by rw [← jobs_of_drift hd]; exact hrow)
    | @call i n o k x w' ht hsem =>
      obtain ⟨p, _, hpre⟩ := hob.permitted ht
      have hboot : ∀ n, Bounded (WriteTells D) Foreign (fun _ => True) (D.sys.boot n) :=
        keeps_boot hD
      have hwrite : WriteTells D o := (h.bounded_rule hboot hpast _ (List.mem_of_getElem? ht)).1
      refine tells_sem hsem (fun j status u he => ?_) hwrite htells
      subst he
      exact (Phase.pre_insertJob (show Phase.pre D.cfg p _ from hpre)).1

end Runs

/-- A step whose answer is foreign, decided. -/
def answersForeign : Label Op Ans PyExc TaskName → Bool
  | .call _ (.infer _) (.ok (.error e)) => !e.isOCRSystemError
  | .call _ _ (.error e) => !e.isOCRSystemError
  | _ => true

theorem answersIn_of_foreign {l : Label Op Ans PyExc TaskName} (h : answersForeign l = true) :
    AnswersIn Foreign l := by
  intro i o x he
  subst he
  cases x with
  | error e =>
    have he : e.isOCRSystemError = false := by
      cases o <;> simpa [answersForeign] using h
    cases o <;> exact he
  | ok a =>
    cases o with
    | infer batch =>
      cases a with
      | ok out => exact trivial
      | error e =>
        have he : e.isOCRSystemError = false := by simpa [answersForeign] using h
        exact he
    | _ => exact trivial

theorem foreign_sample : Sample.deployment.Foreign where
  redirectUrl _ _ _ h := by cases h
  openImage _ _ h := by cases h
  exifTranspose _ _ h := by cases h
  convertRgb _ _ h := by cases h
  thumbnail _ _ _ h := by cases h
  imagePhash _ _ h := by cases h
  letterboxed _ _ _ _ _ _ h := by cases h; rfl
  crop _ _ _ _ _ _ h := by cases h
  encodeJpeg _ _ h := by cases h
  postprocess _ _ _ h := by cases h

end InvoiceOcr
