/-
  File:      InvoiceOcr/Footprint.lean
  Subject:   WHICH CALLS A BODY CAN MAKE, on any answers.

  * `Op.IsStorage` -- a statement or a Redis command; `storage_…` -- the helpers of the worker and
    its write-back make no other call;
  * `Op.IsClosing` -- failure writes, touches, counts and pushes; `closing_…` -- the helpers that end a
    run make no other call;
  * `Op.NoRequest` -- anything but a request; `noRequest_preprocess` -- so everything a lifecycle
    does once it has downloaded;
  * `Op.NoGemini` -- neither a token nor a model call;
  * **`lifecycle_around_download`** -- a monitor that minds requests only has to look at the download.
-/
import InvoiceOcr.Deployment

namespace InvoiceOcr

open PyJson Async

/-- A statement on the jobs table or a Redis command. -/
def Op.IsStorage (o : Op) : Prop := o.isStage = false

def Op.NoRequest : Op → Prop
  | .request _ => False
  | _ => True

def Op.NoGemini : Op → Prop
  | .acquire => False
  | .generateContent _ => False
  | _ => True

theorem Op.IsStorage.noRequest {o : Op} (h : o.IsStorage) : o.NoRequest := by
  cases o <;> first | exact trivial | cases h

theorem Op.IsStorage.noGemini {o : Op} (h : o.IsStorage) : o.NoGemini := by
  cases o <;> first | exact trivial | cases h

theorem Op.IsModel.noRequest {o : Op} (h : o.IsModel) : o.NoRequest := by
  cases o <;> first | exact trivial | exact h.elim

/-! ## 1. The helpers call the stores only -/

section Storage

variable {cfg : Settings} {wk : Worker} {j : Uuid} {v : Json}

/-- `except …: pass`. -/
theorem onlyCalls_suppress {P : Op → Prop} {α : Type} {p : Py α} (hp : p.OnlyCalls P)
    (c : PyExc → Bool) (a : α) : (p.tryCatch fun e => if c e then .ret a else .raise e).OnlyCalls P := by
  refine onlyCalls_tryElse hp (fun e => ?_) fun _ => trivial
  split <;> exact trivial

theorem storage_mapped {o : Op} (h : o.isStage = false) (f : PyExc → PyExc) :
    ((await o).tryCatch fun e => .raise (f e)).OnlyCalls Op.IsStorage :=
  onlyCalls_mapped h f

theorem storage_update (set : JobSet) : (updateJobStatus j set).OnlyCalls Op.IsStorage :=
  storage_mapped (o := .updateJob _ _) rfl _

/-- What the helpers that end a run call: failure writes, touches, counts and pushes. -/
def Op.IsClosing : Op → Prop
  | .updateJob _ set => set.status.isFailed = true
  | .touchJob _ => True
  | .lpush _ => True
  | .hincrby _ _ => True
  | .expire _ _ => True
  | _ => False

theorem Op.IsClosing.isStorage {o : Op} (h : o.IsClosing) : o.IsStorage := by
  cases o <;> first | rfl | exact h.elim

theorem closing_fail (isPermanent : Bool) (code msg : Str) :
    (fail j isPermanent code msg).OnlyCalls Op.IsClosing := by
  have hfailed : (failSet isPermanent code msg).status.isFailed = true := by
    cases isPermanent <;> rfl
  refine onlyCalls_tryElse ?_ (fun _ => trivial) fun _ => trivial
  exact onlyCalls_mapped hfailed _

theorem closing_yield : (yieldToQueue j v).OnlyCalls Op.IsClosing := by
  refine onlyCalls_bind ?_ fun _ => ?_
  · exact onlyCalls_mapped (o := .touchJob _) trivial _
  · exact onlyCalls_mapped (o := .lpush _) trivial _

theorem closing_bump : (bumpRequeueCounter cfg j).OnlyCalls Op.IsClosing := by
  refine onlyCalls_tryElse ?_ (fun _ => trivial) fun _ => trivial
  refine onlyCalls_bind (onlyCalls_await trivial) fun count => ?_
  split
  · exact onlyCalls_bind (onlyCalls_await trivial) fun _ => trivial
  · exact trivial

theorem closing_bumpOrOrphan : (bumpOrOrphan cfg j v).OnlyCalls Op.IsClosing := by
  refine onlyCalls_tryElse closing_bump (fun e => ?_) fun count => ?_
  · split
    · exact onlyCalls_bind closing_yield fun _ => trivial
    · exact trivial
  · split
    · exact onlyCalls_bind (closing_fail _ _ _) fun _ => trivial
    · exact trivial

theorem closing_requeue : (requeueCounted cfg j v).OnlyCalls Op.IsClosing := by
  refine onlyCalls_bind closing_bumpOrOrphan fun c => ?_
  cases c with
  | none => exact trivial
  | some _ => exact closing_yield

theorem closing_handler (e : PyExc) : (lifecycleHandler j e).OnlyCalls Op.IsClosing := by
  unfold lifecycleHandler
  split
  · exact closing_fail _ _ _
  · exact onlyCalls_tryElse (closing_fail _ _ _) (fun _ => trivial) fun _ => trivial

theorem storage_fail (isPermanent : Bool) (code msg : Str) :
    (fail j isPermanent code msg).OnlyCalls Op.IsStorage :=
  onlyCalls_mono (fun _ h => h.isStorage) (closing_fail isPermanent code msg)

theorem storage_yield : (yieldToQueue j v).OnlyCalls Op.IsStorage :=
  onlyCalls_mono (fun _ h => h.isStorage) closing_yield

theorem storage_requeue : (requeueCounted cfg j v).OnlyCalls Op.IsStorage :=
  onlyCalls_mono (fun _ h => h.isStorage) closing_requeue

theorem storage_handler (e : PyExc) : (lifecycleHandler j e).OnlyCalls Op.IsStorage :=
  onlyCalls_mono (fun _ h => h.isStorage) (closing_handler e)

theorem storage_persist (final : InvoiceResult) : (persist j v final).OnlyCalls Op.IsStorage := by
  refine onlyCalls_tryElse (storage_update _) (fun e => ?_) fun _ => trivial
  split
  · exact storage_yield
  · exact trivial

theorem storage_finish (raw : InvoiceResult) : (finish wk j v raw).OnlyCalls Op.IsStorage :=
  onlyCalls_bind (onlyCalls_ofExcept _) fun final => storage_persist final

theorem storage_getPhashCache (phash : Str) : (getPhashCache cfg phash).OnlyCalls Op.IsStorage := by
  refine onlyCalls_bind (storage_mapped (o := .get _) rfl _) fun val => ?_
  cases val <;> exact trivial

theorem storage_setPhashCache (phash : Str) (raw : Dict) :
    (setPhashCache cfg phash raw).OnlyCalls Op.IsStorage :=
  storage_mapped (o := .setex _ _ _) rfl _

/-- What a run does with an invoice it has extracted. -/
theorem storage_afterExtract (phash : Str) (raw : InvoiceResult) :
    ((setPhashCache wk.cfg phash raw.modelDump).tryCatch fun e =>
        if e.isStorageTransientError then .ret () else .raise e).bind
      (fun _ => finish wk j v raw) |>.OnlyCalls Op.IsStorage :=
  onlyCalls_bind (onlyCalls_suppress (storage_setPhashCache _ _) _ _) fun _ => storage_finish raw

/-! Requests and daemons. -/

theorem onlyCalls_submit {P : Op → Prop} (hdepth : P .llen) (hinsert : ∀ status u, P (.insertJob j status u))
    (hpush : ∀ m, P (.lpush m)) (lib : Externals) (u : Str) :
    (submitReceipt cfg lib j u).OnlyCalls P := by
  have hcheck : (checkBackpressure cfg).OnlyCalls P := by
    refine onlyCalls_tryElse (onlyCalls_mapped hdepth _) (fun _ => trivial) fun depth => ?_
    split <;> exact trivial
  have henqueue : (enqueue j u).OnlyCalls P := by
    refine onlyCalls_tryElse (onlyCalls_mapped (hpush _) _) (fun e => ?_) fun _ => trivial
    split <;> exact trivial
  refine onlyCalls_tryElse (onlyCalls_bind hcheck fun _ => ?_) (fun e => ?_) fun _ => trivial
  · unfold validateAndPersist
    split
    · refine onlyCalls_tryElse (onlyCalls_mapped (hinsert _ _) _) (fun e => ?_) fun _ => henqueue
      split <;> exact trivial
    · split <;> exact trivial
  · split <;> exact trivial

theorem onlyCalls_sweepRows {P : Op → Prop} (hupdate : ∀ j set, P (.updateJob j set))
    (rows : List JobRow) (count : Nat) : (sweepRows rows count).OnlyCalls P := by
  induction rows generalizing count with
  | nil => exact trivial
  | cons r rows ih =>
    refine onlyCalls_tryElse ?_ (fun _ => ih count) fun _ => ih (count + 1)
    exact onlyCalls_tryElse (onlyCalls_mapped (hupdate _ _) _) (fun _ => trivial) fun _ => trivial

theorem onlyCalls_sweep {P : Op → Prop} (hselect : ∀ m n, P (.selectStale m n))
    (hupdate : ∀ j set, P (.updateJob j set)) : (sweeperIteration cfg).OnlyCalls P := by
  refine onlyCalls_tryElse ?_ (fun _ => trivial) fun _ => trivial
  exact onlyCalls_bind (onlyCalls_mapped (hselect _ _) _) fun rows => onlyCalls_sweepRows hupdate rows 0

theorem storage_submit (lib : Externals) (u : Str) :
    (submitReceipt cfg lib j u).OnlyCalls Op.IsStorage :=
  onlyCalls_submit (P := Op.IsStorage) rfl (fun _ _ => rfl) (fun _ => rfl) lib u

theorem storage_sweep : (sweeperIteration cfg).OnlyCalls Op.IsStorage :=
  onlyCalls_sweep (P := Op.IsStorage) (fun _ _ => rfl) fun _ _ => rfl

theorem storage_purge : (purgeIteration cfg).OnlyCalls Op.IsStorage :=
  onlyCalls_tryElse (storage_mapped (o := .deleteOld _) rfl _) (fun _ => trivial) fun _ => trivial

end Storage

/-! ## 2. No request after the download -/

section Requests

variable {wk : Worker} {j : Uuid} {v : Json}

theorem noRequest_of_storage {α : Type} {p : Py α} (h : p.OnlyCalls Op.IsStorage) :
    p.OnlyCalls Op.NoRequest :=
  onlyCalls_mono (fun _ ho => ho.noRequest) h

theorem noRequest_extract (phash : Str) (crop : Image) :
    (extractStage wk j v phash crop).OnlyCalls Op.NoRequest := by
  refine onlyCalls_tryElse (onlyCalls_mono (fun _ ho => ho.noRequest) (model_extractInvoice _ _ _))
    (fun e => ?_) fun raw => noRequest_of_storage (storage_afterExtract _ raw)
  split
  · exact noRequest_of_storage storage_yield
  · split
    · exact noRequest_of_storage storage_requeue
    · split
      · exact noRequest_of_storage (storage_fail _ _ _)
      · exact trivial

theorem noRequest_acquire (phash : Str) (crop : Image) :
    (acquireStage wk j v phash crop).OnlyCalls Op.NoRequest := by
  refine onlyCalls_bind (onlyCalls_await trivial) fun granted => ?_
  cases granted with
  | true => exact noRequest_extract _ _
  | false => exact noRequest_of_storage storage_yield

theorem noRequest_detect (pp : PreprocessResult) :
    (detectStage wk j v pp).OnlyCalls Op.NoRequest := by
  refine onlyCalls_tryElse (onlyCalls_mono (fun _ ho => ho.noRequest) (model_detectInvoice _ _ _))
    (fun e => ?_) fun crop => noRequest_acquire _ crop
  split
  · exact noRequest_of_storage (storage_fail _ _ _)
  · split
    · exact noRequest_of_storage storage_requeue
    · exact trivial

theorem noRequest_cache (pp : PreprocessResult) :
    (cacheStage wk j v pp).OnlyCalls Op.NoRequest := by
  refine onlyCalls_bind
    (noRequest_of_storage (onlyCalls_suppress (storage_getPhashCache _) _ _)) fun cachedRaw => ?_
  cases cachedInvoice cachedRaw with
  | some raw => exact noRequest_of_storage (storage_finish raw)
  | none => exact noRequest_detect pp

theorem noRequest_phash (record : JobRow) (pp : PreprocessResult) :
    (phashStage wk j v record pp).OnlyCalls Op.NoRequest := by
  unfold phashStage
  split
  · exact onlyCalls_bind (noRequest_of_storage (onlyCalls_suppress (storage_update _) _ _))
      fun _ => noRequest_cache pp
  · exact noRequest_cache pp

theorem noRequest_preprocess (record : JobRow) (raw : Bytes) :
    (preprocessStage wk j v record raw).OnlyCalls Op.NoRequest := by
  refine onlyCalls_tryElse (onlyCalls_ofExcept _) (fun e => ?_) fun pp => noRequest_phash record pp
  split
  · exact noRequest_of_storage (storage_fail _ _ _)
  · exact trivial

end Requests

/-! ## 3. The lifecycle around its download -/

section Around

variable {σ : Type} {M : Monitor Op Ans PyExc σ} {past : σ → Prop} {wk : Worker} {j : Uuid} {v : Json}

/-- The monitor leaves a body without requests alone, in every situation of `past`. -/
def MindsRequests (M : Monitor Op Ans PyExc σ) (past : σ → Prop) : Prop :=
  ∀ s, past s → ∀ o, o.NoRequest → M.pre s o ∧ ∀ r, M.next s o r = s

theorem wp_noRequest {α : Type} (hM : MindsRequests M past) {p : Py α}
    (hp : p.OnlyCalls Op.NoRequest) {s : σ} (hs : past s) : wp M (fun _ s' => s' = s) p s :=
  wp_quiet (fun o ho => (hM s hs o ho).1) (fun o r ho => (hM s hs o ho).2 r) hp fun _ => rfl

theorem wp_noRequest_past {α : Type} (hM : MindsRequests M past) {p : Py α}
    (hp : p.OnlyCalls Op.NoRequest) {s : σ} (hs : past s) : wp M (fun _ s' => past s') p s :=
  wp_mono (fun _ _ h => h ▸ hs) (wp_noRequest hM hp hs)

/-- **What a lifecycle requests, its download requests.** -/
theorem lifecycle_around_download (hM : MindsRequests M past) {s : σ} (hs : past s)
    (hdownload : wp M (fun _ s' => past s') (downloadImage wk.cfg wk.lib v) s) :
    wp M (fun _ s' => past s') (executeTaskLifecycle wk j v) s := by
  have hread : (getJobRecord j).OnlyCalls Op.NoRequest :=
    noRequest_of_storage (storage_mapped (o := .selectJob j) rfl _)
  have hyield : ∀ e : PyExc, (if e.isDatabaseUnavailable then yieldToQueue j v else .raise e :
      Py Unit).OnlyCalls Op.NoRequest := by
    intro e
    split
    · exact noRequest_of_storage storage_yield
    · exact trivial
  have hstage : ∀ record, wp M (fun _ s' => past s') (downloadStage wk j v record) s := by
    intro record
    refine wp_tryElse_of hdownload (fun raw s' hs' => ?_) fun e s' hs' => ?_
    · exact wp_noRequest_past hM (noRequest_preprocess record raw) hs'
    · refine wp_noRequest_past hM ?_ hs'
      split
      · exact noRequest_of_storage (storage_fail _ _ _)
      · split
        · exact noRequest_of_storage storage_requeue
        · exact trivial
  have hmark : ∀ record, wp M (fun _ s' => past s') (markStage wk j v record) s := by
    intro record
    refine wp_tryElse_of (wp_noRequest hM (noRequest_of_storage (storage_update _)) hs)
      (fun _ s' h => h ▸ hstage record) fun e s' h => ?_
    exact wp_noRequest_past hM (hyield e) (h ▸ hs)
  refine wp_tryElse_of (R := fun _ s' => past s') ?_ (fun _ _ h => h)
    fun e s' h => wp_noRequest_past hM (noRequest_of_storage (storage_handler e)) h
  refine wp_tryElse_of (wp_noRequest hM hread hs) (fun row s' h => ?_) fun e s' h => ?_
  · subst h
    cases row with
    | none => exact hs
    | some record =>
      simp only
      split
      · exact hs
      · exact hmark record
  · exact wp_noRequest_past hM (hyield e) (h ▸ hs)

/-- What a loaded message is read as. -/
def readLoaded (msg : Option Json) : Option (Uuid × Json) :=
  match msg with
  | none => none
  | some msg =>
    match readMessage msg with
    | .ok m => some m
    | .error _ => none

theorem readLoaded_loads {val : Str} (h : tooDeep jsonDepth val = none) :
    readLoaded (loadsOrNone val) = decodeMessage val := by
  unfold readLoaded decodeMessage
  generalize tooDeep jsonDepth val = deep at h
  subst h
  cases loadsOrNone val with
  | none => rfl
  | some msg => cases readMessage msg <;> rfl

/-- The job and the URL of an answered pop. -/
def decodedPop : Except PyExc (Option Str) → Option (Uuid × Json)
  | .ok val => val.bind decodeMessage
  | .error _ => none

/-- **What a pass requests, the download of what it popped requests.** -/
theorem iteration_around_download (hM : MindsRequests M past) {s₀ : σ}
    {loaded : Option (Uuid × Json) → σ} (hpre : M.pre s₀ .brpop)
    (hnext : ∀ r, M.next s₀ .brpop r = loaded (decodedPop r))
    (hpast : ∀ m, past (loaded (some m)))
    (hdownload : ∀ m, wp M (fun _ s' => past s') (downloadImage wk.cfg wk.lib m.2) (loaded (some m))) :
    wp M (fun _ s => s = loaded none ∨ past s)
      (workerIteration jsonDepth (executeTaskLifecycle wk)) s₀ := by
  have hpop : wp M (fun x s => s = loaded (match x with | .ok msg => readLoaded msg | .error _ => none))
      (popFromQueue jsonDepth) s₀ := by
    refine (wp_tryElse _ _ _ _).mpr ((wp_await _ _).mpr ⟨hpre, fun r _ => ?_⟩)
    rw [hnext]
    cases r with
    | error e =>
      simp only [branch_error, decodedPop]
      split
      · exact rfl
      · split <;> exact rfl
    | ok val =>
      cases val with
      | none => exact rfl
      | some val =>
        simp only [branch_ok, decodedPop, Option.bind_some]
        cases hdeep : tooDeep jsonDepth val with
        | some container =>
          rw [loadsWithin_tooDeep hdeep]
          exact congrArg loaded (decodeMessage_tooDeep hdeep)
        | none =>
          rw [loadsWithin_flat hdeep]
          exact congrArg loaded (readLoaded_loads hdeep).symm
  refine wp_bind_of hpop (fun msg s h => ?_) fun _ _ h => Or.inl h
  subst h
  cases msg with
  | none => exact Or.inl rfl
  | some msg =>
    refine wp_tryElse_of (R := fun _ s => s = loaded none ∨ past s) ?_ (fun _ _ h => h)
      fun _ _ h => h
    simp only [readLoaded]
    cases readMessage msg with
    | error e => exact Or.inl rfl
    | ok m =>
      refine wp_mono (fun _ _ h => Or.inr h) ?_
      exact lifecycle_around_download hM (hpast m) (hdownload m)

end Around

end InvoiceOcr
