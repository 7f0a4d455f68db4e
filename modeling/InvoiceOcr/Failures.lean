/-
  File:      InvoiceOcr/Failures.lean
  Subject:   THE COUNTED FAILURES OF A PASS: a transient error of the CDN, Triton unavailable, Gemini
             exhausted, each told from what the services have answered.

  * `Backend`, `callsTo` -- the services behind the stages, and the calls of a pass to one of them;
  * `StageFailure` -- on its calls the download, the detection or the extraction of the pass has raised
    the error that loop.py counts;
  * `MayCall`, `MayEnd` -- such a failure is counted next, and nothing else is; `wp_stage` -- STEP: one
    stage; **`obeys_counting`** -- so does a whole pass;
  * **`failure_counted`** -- RUN: a pass in which a stage has failed has counted it, or waits on the very
    HINCRBY, nothing pushed; **`count_of_failure`** -- and every HINCRBY counts such a failure.
-/
import InvoiceOcr.Async.History
import InvoiceOcr.Footprint
import InvoiceOcr.Replay

namespace InvoiceOcr

open PyJson Async

/-! ## 1. What a pass has been answered -/

/-- The calls and answers of a pass. -/
abbrev Calls := List (Event Op Ans PyExc)

/-- The services behind the stages of a run; the cache is the lookup of stage 4. -/
inductive Backend where
  | cdn
  | cache
  | triton
  | bucket
  | gemini
  deriving DecidableEq

/-- The service of a call. The waits are those between the attempts on Gemini. -/
def Op.backend : Op → Option Backend
  | .request _ => some .cdn
  | .get _ => some .cache
  | .infer _ => some .triton
  | .acquire => some .bucket
  | .generateContent _ => some .gemini
  | .sleep _ => some .gemini
  | _ => none

/-- The calls to one service, in their order. -/
def callsTo (x : Backend) (es : Calls) : Calls := es.filter fun ev => ev.op.backend = some x

/-- The message a pass has popped. -/
def poppedJob : Calls → Option (Uuid × Json)
  | ⟨.brpop, .ok (some m)⟩ :: _ => decodeMessage m
  | _ => none

section Told

variable (wk : Worker) (v : Json)

/-- The cache lookup of `execute_task_lifecycle`. -/
def lookup (phash : Str) : Py (Option Json) :=
  (getPhashCache wk.cfg phash).tryCatch fun e =>
    if e.isStorageTransientError then .ret none else .raise e

/-- What was downloaded has been preprocessed to `pp`. -/
def Preprocessed (es : Calls) (pp : PreprocessResult) : Prop :=
  ∃ raw, Leads (downloadImage wk.cfg wk.lib v) (callsTo .cdn es) (.ret raw) ∧
    preprocessImage wk.cfg wk.lib raw = .ok pp

/-- The lookup found no usable payload. -/
def CacheMissed (es : Calls) (pp : PreprocessResult) : Prop :=
  ∃ cachedRaw, Leads (lookup wk pp.phash) (callsTo .cache es) (.ret cachedRaw) ∧
    cachedInvoice cachedRaw = none

/-- **A stage of the pass has raised an error that is counted.** -/
inductive StageFailure (es : Calls) : Prop where
  /-- `except StorageTransientError` around `download_image`. -/
  | cdn {e : PyExc} (h : Leads (downloadImage wk.cfg wk.lib v) (callsTo .cdn es) (.raise e))
      (he : e.isStorageTransientError = true)
  /-- `except TritonUnavailableError` around `detect_invoice`. -/
  | triton {pp : PreprocessResult} {e : PyExc} (hpp : Preprocessed wk v es pp)
      (hmiss : CacheMissed wk es pp)
      (h : Leads (detectInvoice wk.cfg wk.lib pp.pil) (callsTo .triton es) (.raise e))
      (he : e.isTritonUnavailableError = true)
  /-- `except GeminiExhaustedError` around `extract_invoice`. -/
  | gemini {pp : PreprocessResult} {crop : Image} {e : PyExc} (hpp : Preprocessed wk v es pp)
      (hcrop : Leads (detectInvoice wk.cfg wk.lib pp.pil) (callsTo .triton es) (.ret crop))
      (hgranted : Leads (await .acquire) (callsTo .bucket es) (.ret true))
      (h : Leads (extractInvoice wk.cfg wk.lib crop) (callsTo .gemini es) (.raise e))
      (he : e.isGeminiExhaustedError = true)

end Told

/-- Neither a count nor a push. -/
def Op.isFresh : Op → Bool
  | .hincrby _ _ => false
  | .lpush _ => false
  | _ => true

/-- The pass has neither counted nor pushed. -/
def Fresh (es : Calls) : Prop := ∀ ev ∈ es, ev.op.isFresh = true

/-- The pass has sent the HINCRBY of its job. -/
def Counted (j : Uuid) (es : Calls) : Prop :=
  ∃ r, ⟨.hincrby (requeueKey j) requeueField, r⟩ ∈ es

/-- **What a pass may call after `es`**: a HINCRBY to count a failure, before anything is pushed; and
    nothing else while a failure is not counted. -/
structure MayCall (wk : Worker) (es : Calls) (o : Op) : Prop where
  counts : ∀ key field, o = .hincrby key field → ∃ j v, poppedJob es = some (j, v) ∧
    key = requeueKey j ∧ field = requeueField ∧ StageFailure wk v es ∧ Fresh es
  counted : ∀ j v, poppedJob es = some (j, v) → StageFailure wk v es →
    Counted j es ∨ (o = .hincrby (requeueKey j) requeueField ∧ Fresh es)

/-- A pass ends with no failure uncounted. -/
def MayEnd (wk : Worker) (es : Calls) : Prop :=
  ∀ j v, poppedJob es = some (j, v) → StageFailure wk v es → Counted j es

/-! ## 2. Calls to services -/

section Services

variable {x y : Backend} {es ds : Calls} {j : Uuid} {v : Json} {wk : Worker}

/-- Every call of `ds` goes to the service. -/
def AllTo (x : Backend) (ds : Calls) : Prop := ∀ ev ∈ ds, ev.op.backend = some x

theorem callsTo_append (x : Backend) (es ds : Calls) :
    callsTo x (es ++ ds) = callsTo x es ++ callsTo x ds := List.filter_append ..

theorem callsTo_all (h : AllTo x ds) : callsTo x ds = ds :=
  List.filter_eq_self.mpr fun ev hev => decide_eq_true (h ev hev)

theorem callsTo_other (h : AllTo x ds) (hne : y ≠ x) : callsTo y ds = [] := by
  refine List.filter_eq_nil_iff.mpr fun ev hev hto => hne ?_
  exact Option.some.inj ((of_decide_eq_true hto).symm.trans (h ev hev))

theorem poppedJob_append {m : Uuid × Json} (h : poppedJob es = some m) (ds : Calls) :
    poppedJob (es ++ ds) = some m := by
  cases es with
  | nil => cases h
  | cons ev es =>
    unfold poppedJob at h
    split at h
    next heq => cases heq; exact h
    next => cases h

theorem Fresh.append (h : Fresh es) (hds : Fresh ds) : Fresh (es ++ ds) := fun ev hev =>
  (List.mem_append.mp hev).elim (h ev) (hds ev)

theorem AllTo.fresh (h : AllTo x ds) : Fresh ds := by
  intro ev hev
  have hto := h ev hev
  obtain ⟨o, r⟩ := ev
  cases o <;> first | rfl | cases hto

/-- What a run does beside its stages: no service is asked and nothing is counted. -/
def Op.IsAside : Op → Prop
  | .hincrby _ _ => False
  | o => o.backend = none

theorem Op.IsAside.backend {o : Op} (h : o.IsAside) : o.backend = none := by
  cases o <;> first | exact h | exact h.elim

theorem callsTo_aside {o : Op} (h : o.IsAside) (x : Backend) (es : Calls) (r : Except PyExc (Ans o)) :
    callsTo x (es ++ [⟨o, r⟩]) = callsTo x es := by
  rw [callsTo_append, callsTo, callsTo, List.filter_singleton, h.backend]
  exact List.append_nil _

/-- A failure is told from the calls to the services. -/
theorem StageFailure.congr {es es' : Calls} (heq : ∀ x, callsTo x es = callsTo x es')
    (h : StageFailure wk v es) : StageFailure wk v es' := by
  have hpp : ∀ {pp}, Preprocessed wk v es pp → Preprocessed wk v es' pp := fun h => by
    unfold Preprocessed at h ⊢
    rwa [← heq]
  have hmiss : ∀ {pp}, CacheMissed wk es pp → CacheMissed wk es' pp := fun h => by
    unfold CacheMissed at h ⊢
    rwa [← heq]
  cases h with
  | cdn h he => exact .cdn (heq _ ▸ h) he
  | triton hp hm h he => exact .triton (hpp hp) (hmiss hm) (heq _ ▸ h) he
  | gemini hp hc hg h he => exact .gemini (hpp hp) (heq _ ▸ hc) (heq _ ▸ hg) (heq _ ▸ h) he

end Services

/-! ## 3. Where a pass stands -/

section Standing

variable {wk : Worker} {j : Uuid} {v : Json} {es ds : Calls} {pp : PreprocessResult} {crop : Image}

/-- A pass at work on its message, the services in `later` not asked yet. -/
structure AtWork (j : Uuid) (v : Json) (later : List Backend) (es : Calls) : Prop where
  popped : poppedJob es = some (j, v)
  fresh : Fresh es
  unasked : ∀ x ∈ later, callsTo x es = []

/-- A pass whose failure, if there is one, is counted. -/
structure Reckoned (wk : Worker) (j : Uuid) (v : Json) (es : Calls) : Prop where
  popped : poppedJob es = some (j, v)
  counted : StageFailure wk v es → Counted j es

/-- A pass that has loaded its image. -/
structure Loaded (wk : Worker) (j : Uuid) (v : Json) (raw : Bytes) (es : Calls) : Prop where
  work : AtWork j v [.cache, .triton, .bucket, .gemini] es
  raw : Leads (downloadImage wk.cfg wk.lib v) (callsTo .cdn es) (.ret raw)

/-- A stage that asks its own service leaves the later ones unasked. -/
theorem AtWork.run {x : Backend} {later : List Backend} (h : AtWork j v (x :: later) es)
    (hx : x ∉ later) (hds : AllTo x ds) : AtWork j v later (es ++ ds) where
  popped := poppedJob_append h.popped ds
  fresh := h.fresh.append hds.fresh
  unasked y hy := by
    rw [callsTo_append, h.unasked y (List.mem_cons_of_mem _ hy),
      callsTo_other hds fun heq => hx (heq ▸ hy)]
    rfl

/-- The calls of the stage that is under way are its own. -/
theorem AtWork.own {x : Backend} {later : List Backend} (h : AtWork j v (x :: later) es)
    (hds : AllTo x ds) : callsTo x (es ++ ds) = ds := by
  rw [callsTo_append, h.unasked x List.mem_cons_self, callsTo_all hds]
  rfl

theorem callsTo_before {x y : Backend} (hds : AllTo x ds) (hne : y ≠ x) :
    callsTo y (es ++ ds) = callsTo y es := by
  rw [callsTo_append, callsTo_other hds hne, List.append_nil]

theorem AtWork.aside {later : List Backend} {o : Op} (h : AtWork j v later es) (ho : o.IsAside)
    (hfresh : o.isFresh = true) (r : Except PyExc (Ans o)) : AtWork j v later (es ++ [⟨o, r⟩]) where
  popped := poppedJob_append h.popped _
  fresh := h.fresh.append fun ev hev => by rw [List.mem_singleton.mp hev]; exact hfresh
  unasked x hx := (callsTo_aside ho x es r).trans (h.unasked x hx)

theorem download_first (cfg : Settings) (lib : Externals) (url : Str) :
    ∃ k, downloadImage cfg lib (.str url) = .call (.request url) k := by
  have hget : ∃ k, httpxGet lib maxRedirects url = .call (.request url) k := by
    unfold httpxGet
    exact ⟨_, rfl⟩
  obtain ⟨k, hk⟩ := hget
  simp only [downloadImage, hk]
  exact ⟨_, rfl⟩

/-- Before the download nothing has failed. -/
theorem not_failure_early {later : List Backend} (h : AtWork j v (.cdn :: .cache :: later) es)
    (hbucket : Backend.bucket ∈ later) : ¬ StageFailure wk v es := by
  intro hf
  cases hf with
  | @cdn e hl he =>
    rw [h.unasked .cdn List.mem_cons_self] at hl
    have hraise := leads_nil.mp hl
    cases v with
    | str url =>
      obtain ⟨k, hk⟩ := download_first wk.cfg wk.lib url
      cases hk.symm.trans hraise.symm
    | _ =>
      cases hraise
      cases he
  | triton _ hmiss _ _ =>
    obtain ⟨cachedRaw, hl, _⟩ := hmiss
    rw [h.unasked .cache (List.mem_cons_of_mem _ List.mem_cons_self)] at hl
    cases leads_nil.mp hl
  | gemini _ _ hgranted _ _ =>
    rw [h.unasked .bucket (List.mem_cons_of_mem _ (List.mem_cons_of_mem _ hbucket))] at hgranted
    cases leads_nil.mp hgranted

/-- **What can have failed once the download is through**: the detection or the extraction. -/
theorem failure_after_download {raw : Bytes}
    (hraw : Leads (downloadImage wk.cfg wk.lib v) (callsTo .cdn es) (.ret raw))
    (h : StageFailure wk v es) :
    ∃ pp, preprocessImage wk.cfg wk.lib raw = .ok pp ∧
      ((CacheMissed wk es pp ∧ ∃ e, e.isTritonUnavailableError = true ∧
          Leads (detectInvoice wk.cfg wk.lib pp.pil) (callsTo .triton es) (.raise e)) ∨
        ∃ crop e, e.isGeminiExhaustedError = true ∧
          Leads (detectInvoice wk.cfg wk.lib pp.pil) (callsTo .triton es) (.ret crop) ∧
          Leads (await .acquire) (callsTo .bucket es) (.ret true) ∧
          Leads (extractInvoice wk.cfg wk.lib crop) (callsTo .gemini es) (.raise e)) := by
  have hpp : ∀ {pp}, Preprocessed wk v es pp → preprocessImage wk.cfg wk.lib raw = .ok pp := by
    intro pp hpp
    obtain ⟨raw', hl, hpre⟩ := hpp
    cases leads_unique hraw hl
    exact hpre
  cases h with
  | cdn hl _ => cases leads_unique hraw hl
  | triton hp hmiss hl he => exact ⟨_, hpp hp, Or.inl ⟨hmiss, _, he, hl⟩⟩
  | gemini hp hcrop hgranted hl he =>
    exact ⟨_, hpp hp, Or.inr ⟨_, _, he, hcrop, hgranted, hl⟩⟩

/-- Until the cache has been asked nothing else has failed. -/
theorem not_failure_loaded {raw : Bytes} {later : List Backend}
    (h : AtWork j v (.cache :: later) es) (hbucket : Backend.bucket ∈ later)
    (hraw : Leads (downloadImage wk.cfg wk.lib v) (callsTo .cdn es) (.ret raw)) :
    ¬ StageFailure wk v es := by
  intro hf
  obtain ⟨pp, _, ⟨hmiss, _⟩ | ⟨_, _, _, _, hgranted, _⟩⟩ := failure_after_download hraw hf
  · obtain ⟨cachedRaw, hl, _⟩ := hmiss
    rw [h.unasked .cache List.mem_cons_self] at hl
    cases leads_nil.mp hl
  · rw [h.unasked .bucket (List.mem_cons_of_mem _ hbucket)] at hgranted
    cases leads_nil.mp hgranted

/-- Until a token is granted only the detection can have failed. -/
theorem failure_of_detect {later : List Backend} (h : AtWork j v (.bucket :: later) es)
    (hpp : Preprocessed wk v es pp) (hf : StageFailure wk v es) :
    ∃ e, e.isTritonUnavailableError = true ∧
      Leads (detectInvoice wk.cfg wk.lib pp.pil) (callsTo .triton es) (.raise e) := by
  obtain ⟨raw, hraw, hpre⟩ := hpp
  obtain ⟨pp', hpre', ⟨_, e, he, hl⟩ | ⟨_, _, _, _, hgranted, _⟩⟩ := failure_after_download hraw hf
  · cases hpre.symm.trans hpre'
    exact ⟨e, he, hl⟩
  · rw [h.unasked .bucket List.mem_cons_self] at hgranted
    cases leads_nil.mp hgranted

/-- Once the crop is there only the extraction can fail, and only with a token. -/
theorem failure_of_extract (hpp : Preprocessed wk v es pp)
    (hcrop : Leads (detectInvoice wk.cfg wk.lib pp.pil) (callsTo .triton es) (.ret crop))
    (hf : StageFailure wk v es) :
    Leads (await .acquire) (callsTo .bucket es) (.ret true) ∧
      ∃ e, e.isGeminiExhaustedError = true ∧
        Leads (extractInvoice wk.cfg wk.lib crop) (callsTo .gemini es) (.raise e) := by
  obtain ⟨raw, hraw, hpre⟩ := hpp
  obtain ⟨pp', hpre', ⟨_, e, he, hl⟩ | ⟨crop', e, he, hcrop', hgranted, hl⟩⟩ :=
    failure_after_download hraw hf
  · cases hpre.symm.trans hpre'
    cases leads_unique hcrop hl
  · cases hpre.symm.trans hpre'
    cases leads_unique hcrop hcrop'
    exact ⟨hgranted, e, he, hl⟩

end Standing

/-! ## 4. Bodies that ask no service -/

section Aside

variable {wk : Worker} {cfg : Settings} {j : Uuid} {v : Json}

theorem aside_update (set : JobSet) : (updateJobStatus j set).OnlyCalls Op.IsAside :=
  onlyCalls_mapped (P := Op.IsAside) (o := .updateJob _ _) rfl _

theorem aside_fail (isPermanent : Bool) (code msg : Str) :
    (fail j isPermanent code msg).OnlyCalls Op.IsAside :=
  onlyCalls_tryElse (aside_update _) (fun _ => trivial) fun _ => trivial

theorem aside_yield : (yieldToQueue j v).OnlyCalls Op.IsAside :=
  onlyCalls_bind (onlyCalls_mapped (P := Op.IsAside) (o := .touchJob _) rfl _) fun _ =>
    onlyCalls_mapped (P := Op.IsAside) (o := .lpush _) rfl _

theorem aside_handler (e : PyExc) : (lifecycleHandler j e).OnlyCalls Op.IsAside := by
  unfold lifecycleHandler
  split
  · exact aside_fail _ _ _
  · exact onlyCalls_tryElse (aside_fail _ _ _) (fun _ => trivial) fun _ => trivial

theorem aside_finish (raw : InvoiceResult) : (finish wk j v raw).OnlyCalls Op.IsAside := by
  refine onlyCalls_bind (onlyCalls_ofExcept _) fun final => ?_
  refine onlyCalls_tryElse (aside_update _) (fun e => ?_) fun _ => trivial
  split
  · exact aside_yield
  · exact trivial

theorem aside_afterExtract (phash : Str) (raw : InvoiceResult) :
    ((setPhashCache wk.cfg phash raw.modelDump).tryCatch fun e =>
        if e.isStorageTransientError then .ret () else .raise e).bind
      (fun _ => finish wk j v raw) |>.OnlyCalls Op.IsAside :=
  onlyCalls_bind
    (onlyCalls_suppress (onlyCalls_mapped (P := Op.IsAside) (o := .setex _ _ _) rfl _) _ _)
    fun _ => aside_finish raw

/-- **The transient branch of a stage begins with the count**, and counts once. -/
theorem requeue_first : ∃ k, requeueCounted cfg j v = .call (.hincrby (requeueKey j) requeueField) k ∧
    ∀ r, (k r).OnlyCalls Op.IsAside := by
  -- what is left of the bump, once HINCRBY has answered
  have hcounted : ∀ count : Nat, (wrapRedisErrors "redis bump_requeue".toList (do
      if count = 1 then
        await (.expire (requeueKey j) cfg.redisRequeueTtlSeconds)
      return count) : Py Nat).OnlyCalls Op.IsAside := by
    intro count
    refine onlyCalls_tryElse ?_ (fun _ => trivial) fun _ => trivial
    split
    · exact onlyCalls_bind (onlyCalls_await rfl) fun _ => trivial
    · exact trivial
  obtain ⟨next, hcode, hnext⟩ : ∃ next, requeueCounted cfg j v = (bumpOrOrphan cfg j v).bind next ∧
      ∀ c, (next c).OnlyCalls Op.IsAside := by
    refine ⟨_, rfl, fun c => ?_⟩
    cases c with
    | none => exact trivial
    | some _ => exact aside_yield
  have hbumped : ∀ {p : Py Nat}, p.OnlyCalls Op.IsAside →
      (Proc.bind (p.tryElse
        (fun e =>
          if e.isStorageTransientError then do
            yieldToQueue j v
            return some 0
          else .raise e)
        fun count =>
          if cfg.requeueMax < count then do
            orphan cfg j
            return none
          else .ret (some count)) next).OnlyCalls Op.IsAside := by
    intro p hp
    refine onlyCalls_bind (onlyCalls_tryElse hp (fun e => ?_) fun count => ?_) hnext
    · split
      · exact onlyCalls_bind aside_yield fun _ => trivial
      · exact trivial
    · split
      · exact onlyCalls_bind (aside_fail _ _ _) fun _ => trivial
      · exact trivial
  rw [hcode]
  refine ⟨_, rfl, fun r => ?_⟩
  cases r with
  | error e => exact hbumped (p := .raise _) trivial
  | ok count => exact hbumped (hcounted count)

end Aside

/-! ## 5. A pass counts its failures -/

section Pass

variable {wk : Worker} {j : Uuid} {v : Json} {es ds : Calls} {pp : PreprocessResult} {crop : Image}
  {α : Type} {p : Py α} {later : List Backend}

theorem reckoned_of_not (hp : poppedJob es = some (j, v)) (h : ¬ StageFailure wk v es) :
    Reckoned wk j v es := ⟨hp, fun hf => absurd hf h⟩

theorem mayCall_of_reckoned (h : Reckoned wk j v es) {o : Op} (ho : ∀ key field, o ≠ .hincrby key field) :
    MayCall wk es o where
  counts key field he := absurd he (ho key field)
  counted j' v' hm hf := by
    cases h.popped.symm.trans hm
    exact Or.inl (h.counted hf)

/-- What a run does beside its stages leaves it so. -/
theorem wp_reckoned (hp : p.OnlyCalls Op.IsAside) (h : Reckoned wk j v es) :
    wp (history (MayCall wk)) (fun _ => Reckoned wk j v) p es := by
  refine wp_aside (fun es o h ho => mayCall_of_reckoned h ?_) (fun es o r h ho => ?_) hp h
  · intro key field he
    rw [he] at ho
    exact ho
  · refine ⟨poppedJob_append h.popped _, fun hf => ?_⟩
    obtain ⟨r', hr'⟩ := h.counted (hf.congr fun x => callsTo_aside ho x es r)
    exact ⟨r', List.mem_append_left _ hr'⟩

/-- STEP: a stage that asks one service, no failure being told while it is under way. -/
theorem wp_stage {x : Backend} (hcalls : p.OnlyCalls fun o => o.backend = some x)
    (hpopped : poppedJob es = some (j, v))
    (hsafe : ∀ ds o k, AllTo x ds → Leads p ds (.call o k) → ¬ StageFailure wk v (es ++ ds)) :
    wp (history (MayCall wk))
      (fun y es' => ∃ ds, es' = es ++ ds ∧ AllTo x ds ∧ Leads p ds (.ofExcept y)) p es := by
  refine wp_of_leads (fun ds o k hl => ?_) fun ds y hl => ?_
  · obtain ⟨hcall, hds⟩ := hl.onlyCalls hcalls
    refine mayCall_of_reckoned (reckoned_of_not (poppedJob_append hpopped ds) (hsafe ds o k hds hl)) ?_
    intro key field he
    have ho := hcall.1
    rw [he] at ho
    cases ho
  · exact ⟨ds, rfl, (hl.onlyCalls hcalls).2, hl⟩

/-- **A failure is counted**, and then the run does nothing that tells of another. -/
theorem wp_requeue (hwork : AtWork j v [] es) (hf : StageFailure wk v es) :
    wp (history (MayCall wk)) (fun _ => Reckoned wk j v) (requeueCounted wk.cfg j v) es := by
  obtain ⟨k, hk, haside⟩ := @requeue_first wk.cfg j v
  rw [hk]
  refine ⟨⟨fun key field he => ?_, fun j' v' hm _ => ?_⟩, fun r _ => wp_reckoned (haside r) ?_⟩
  · cases he
    exact ⟨j, v, hwork.popped, rfl, rfl, hf, hwork.fresh⟩
  · cases hwork.popped.symm.trans hm
    exact Or.inr ⟨rfl, hwork.fresh⟩
  · exact ⟨poppedJob_append hwork.popped _, fun _ => ⟨r, List.mem_append_right _ List.mem_cons_self⟩⟩

theorem Preprocessed.run {x : Backend} (h : Preprocessed wk v es pp) (hds : AllTo x ds)
    (hne : Backend.cdn ≠ x) : Preprocessed wk v (es ++ ds) pp := by
  unfold Preprocessed
  rw [callsTo_before hds hne]
  exact h

/-! The stages, the last one first. -/

/-- What an extraction under way, or over, tells of a failure. -/
theorem extract_told (hwork : AtWork j v [.gemini] es) (hpp : Preprocessed wk v es pp)
    (hcrop : Leads (detectInvoice wk.cfg wk.lib pp.pil) (callsTo .triton es) (.ret crop))
    (hds : AllTo .gemini ds) {q : Py InvoiceResult}
    (hq : Leads (extractInvoice wk.cfg wk.lib crop) ds q) (hf : StageFailure wk v (es ++ ds)) :
    ∃ e, e.isGeminiExhaustedError = true ∧ q = .raise e := by
  obtain ⟨_, e, he, hl⟩ := failure_of_extract (hpp.run hds (by decide))
    (by rwa [callsTo_before hds (by decide)]) hf
  rw [hwork.own hds] at hl
  exact ⟨e, he, leads_unique hq hl⟩

theorem counting_extract (hwork : AtWork j v [.gemini] es) (hpp : Preprocessed wk v es pp)
    (hcrop : Leads (detectInvoice wk.cfg wk.lib pp.pil) (callsTo .triton es) (.ret crop))
    (hgranted : Leads (await .acquire) (callsTo .bucket es) (.ret true)) (phash : Str) :
    wp (history (MayCall wk)) (fun _ => Reckoned wk j v) (extractStage wk j v phash crop) es := by
  refine wp_tryElse_of (wp_stage (x := .gemini)
    (onlyCalls_extractInvoice wk.cfg wk.lib (fun _ => rfl) (fun _ => rfl) crop) hwork.popped
    fun ds o k hds hl hf => ?_) (fun raw es' h => ?_) fun e es' h => ?_
  · obtain ⟨_, _, hraise⟩ := extract_told hwork hpp hcrop hds hl hf
    cases hraise
  · obtain ⟨ds, rfl, hds, hl⟩ := h
    refine wp_reckoned (aside_afterExtract phash raw)
      (reckoned_of_not (poppedJob_append hwork.popped ds) fun hf => ?_)
    obtain ⟨_, _, hraise⟩ := extract_told hwork hpp hcrop hds hl hf
    cases hraise
  · obtain ⟨ds, rfl, hds, hl⟩ := h
    by_cases hexhausted : e.isGeminiExhaustedError = true
    · have hlocal : e.isRateLimitedLocallyError = false := by cases e <;> first | rfl | cases hexhausted
      rw [← callsTo_before hds (by decide)] at hcrop hgranted
      rw [hlocal, hexhausted]
      refine wp_requeue (hwork.run List.not_mem_nil hds)
        (.gemini (hpp.run hds (by decide)) hcrop hgranted ?_ hexhausted)
      rwa [hwork.own hds]
    · have hreckoned : Reckoned wk j v (es ++ ds) :=
        reckoned_of_not (poppedJob_append hwork.popped ds) fun hf => by
          obtain ⟨_, he, hraise⟩ := extract_told hwork hpp hcrop hds hl hf
          cases hraise
          exact hexhausted he
      rw [if_neg hexhausted]
      split
      · exact wp_reckoned aside_yield hreckoned
      · split
        · exact wp_reckoned (aside_fail _ _ _) hreckoned
        · exact hreckoned

theorem counting_acquire (hwork : AtWork j v [.bucket, .gemini] es) (hpp : Preprocessed wk v es pp)
    (hcrop : Leads (detectInvoice wk.cfg wk.lib pp.pil) (callsTo .triton es) (.ret crop))
    (phash : Str) :
    wp (history (MayCall wk)) (fun _ => Reckoned wk j v) (acquireStage wk j v phash crop) es := by
  have htold : ∀ {ds}, AllTo .bucket ds → ∀ {q}, Leads (await .acquire) ds q →
      StageFailure wk v (es ++ ds) → q = .ret true := by
    intro ds hds q hq hf
    obtain ⟨hl, _⟩ := failure_of_extract (hpp.run hds (by decide))
      (by rwa [callsTo_before hds (by decide)]) hf
    rw [hwork.own hds] at hl
    exact leads_unique hq hl
  refine wp_bind_of (wp_stage (x := .bucket) (onlyCalls_await rfl) hwork.popped
    fun ds o k hds hl hf => ?_) (fun granted es' h => ?_) fun e es' h => ?_
  · cases htold hds hl hf
  · obtain ⟨ds, rfl, hds, hl⟩ := h
    cases granted with
    | true =>
      refine counting_extract (hwork.run (by decide) hds) (hpp.run hds (by decide)) ?_ ?_ phash
      · rwa [callsTo_before hds (by decide)]
      · rwa [hwork.own hds]
    | false =>
      refine wp_reckoned aside_yield (reckoned_of_not (poppedJob_append hwork.popped ds) fun hf => ?_)
      cases htold hds hl hf
  · obtain ⟨ds, rfl, hds, hl⟩ := h
    refine reckoned_of_not (poppedJob_append hwork.popped ds) fun hf => ?_
    cases htold hds hl hf

/-- What a detection under way, or over, tells of a failure. -/
theorem detect_told (hwork : AtWork j v [.triton, .bucket, .gemini] es)
    (hpp : Preprocessed wk v es pp) (hds : AllTo .triton ds) {q : Py Image}
    (hq : Leads (detectInvoice wk.cfg wk.lib pp.pil) ds q) (hf : StageFailure wk v (es ++ ds)) :
    ∃ e, e.isTritonUnavailableError = true ∧ q = .raise e := by
  obtain ⟨e, he, hl⟩ := failure_of_detect (hwork.run (by decide) hds) (hpp.run hds (by decide)) hf
  rw [hwork.own hds] at hl
  exact ⟨e, he, leads_unique hq hl⟩

theorem counting_detect (hwork : AtWork j v [.triton, .bucket, .gemini] es)
    (hpp : Preprocessed wk v es pp) (hmiss : CacheMissed wk es pp) :
    wp (history (MayCall wk)) (fun _ => Reckoned wk j v) (detectStage wk j v pp) es := by
  refine wp_tryElse_of (wp_stage (x := .triton)
    (onlyCalls_detectInvoice wk.cfg wk.lib (fun _ => rfl) pp.pil) hwork.popped
    fun ds o k hds hl hf => ?_) (fun crop es' h => ?_) fun e es' h => ?_
  · obtain ⟨_, _, hraise⟩ := detect_told hwork hpp hds hl hf
    cases hraise
  · obtain ⟨ds, rfl, hds, hl⟩ := h
    refine counting_acquire (hwork.run (by decide) hds) (hpp.run hds (by decide)) ?_ pp.phash
    rwa [hwork.own hds]
  · obtain ⟨ds, rfl, hds, hl⟩ := h
    by_cases htriton : e.isTritonUnavailableError = true
    · have hpermanent : e.isPermanentPipelineError = false := by
        cases e <;> first | rfl | cases htriton
      rw [hpermanent, htriton]
      have hafter := hwork.run (by decide) hds
      refine wp_requeue ⟨hafter.popped, hafter.fresh, nofun⟩
        (.triton (hpp.run hds (by decide)) ?_ ?_ htriton)
      · unfold CacheMissed
        rwa [callsTo_before hds (by decide)]
      · rwa [hwork.own hds]
    · have hreckoned : Reckoned wk j v (es ++ ds) :=
        reckoned_of_not (poppedJob_append hwork.popped ds) fun hf => by
          obtain ⟨_, he, hraise⟩ := detect_told hwork hpp hds hl hf
          cases hraise
          exact htriton he
      rw [if_neg htriton]
      split
      · exact wp_reckoned (aside_fail _ _ _) hreckoned
      · exact hreckoned

/-- The lookup asks the cache only. -/
theorem onlyCalls_lookup (phash : Str) :
    (lookup wk phash).OnlyCalls fun o => o.backend = some .cache := by
  refine onlyCalls_suppress (onlyCalls_bind ?_ fun val => ?_) _ _
  · exact onlyCalls_mapped (P := fun o => o.backend = some .cache) (o := .get _) rfl _
  · cases val <;> exact trivial

theorem counting_cache (hwork : AtWork j v [.cache, .triton, .bucket, .gemini] es)
    (hpp : Preprocessed wk v es pp) :
    wp (history (MayCall wk)) (fun _ => Reckoned wk j v) (cacheStage wk j v pp) es := by
  have htold : ∀ {ds}, AllTo .cache ds → ∀ {q}, Leads (lookup wk pp.phash) ds q →
      StageFailure wk v (es ++ ds) → ∃ cachedRaw, q = .ret cachedRaw ∧ cachedInvoice cachedRaw = none := by
    intro ds hds q hq hf
    obtain ⟨raw, hraw, hpre⟩ := hpp
    rw [← callsTo_before hds (by decide)] at hraw
    obtain ⟨pp', hpre', ⟨⟨cachedRaw, hl, hnone⟩, _⟩ | ⟨_, _, _, _, hgranted, _⟩⟩ :=
      failure_after_download hraw hf
    · cases hpre.symm.trans hpre'
      rw [hwork.own hds] at hl
      exact ⟨cachedRaw, leads_unique hq hl, hnone⟩
    · rw [callsTo_before hds (by decide), hwork.unasked .bucket (by decide)] at hgranted
      cases leads_nil.mp hgranted
  refine wp_bind_of (wp_stage (x := .cache) (onlyCalls_lookup pp.phash) hwork.popped
    fun ds o k hds hl hf => ?_) (fun cachedRaw es' h => ?_) fun e es' h => ?_
  · obtain ⟨_, hret, _⟩ := htold hds hl hf
    cases hret
  · obtain ⟨ds, rfl, hds, hl⟩ := h
    cases hcached : cachedInvoice cachedRaw with
    | some rawInvoice =>
      refine wp_reckoned (aside_finish rawInvoice)
        (reckoned_of_not (poppedJob_append hwork.popped ds) fun hf => ?_)
      obtain ⟨_, hret, hnone⟩ := htold hds hl hf
      cases hret
      cases hcached.symm.trans hnone
    | none =>
      refine counting_detect (hwork.run (by decide) hds) (hpp.run hds (by decide)) ⟨cachedRaw, ?_, hcached⟩
      rwa [hwork.own hds]
  · obtain ⟨ds, rfl, hds, hl⟩ := h
    refine reckoned_of_not (poppedJob_append hwork.popped ds) fun hf => ?_
    obtain ⟨_, hret, _⟩ := htold hds hl hf
    cases hret

/-- The pHash update asks no service. -/
theorem aside_phash (phash : Str) :
    ((updateJobStatus j (phashSet phash)).tryCatch fun e =>
      if e.isDatabaseUnavailable then .ret () else .raise e).OnlyCalls
        fun o => o.IsAside ∧ o.isFresh = true :=
  onlyCalls_suppress
    (onlyCalls_mapped (P := fun o => o.IsAside ∧ o.isFresh = true) (o := .updateJob _ _) ⟨rfl, rfl⟩ _) _ _

theorem counting_phash {raw : Bytes} (hwork : AtWork j v [.cache, .triton, .bucket, .gemini] es)
    (hraw : Leads (downloadImage wk.cfg wk.lib v) (callsTo .cdn es) (.ret raw))
    (hpre : preprocessImage wk.cfg wk.lib raw = .ok pp) (record : JobRow) :
    wp (history (MayCall wk)) (fun _ => Reckoned wk j v) (phashStage wk j v record pp) es := by
  have hcache : wp (history (MayCall wk)) (fun _ => Reckoned wk j v) (cacheStage wk j v pp) es :=
    counting_cache hwork ⟨raw, hraw, hpre⟩
  have hloaded : ∀ {es}, AtWork j v [.cache, .triton, .bucket, .gemini] es →
      Leads (downloadImage wk.cfg wk.lib v) (callsTo .cdn es) (.ret raw) → Reckoned wk j v es :=
    fun hwork hraw => reckoned_of_not hwork.popped (not_failure_loaded hwork (by decide) hraw)
  unfold phashStage
  split
  · have hmay : ∀ es o, Loaded wk j v raw es → o.IsAside ∧ o.isFresh = true → MayCall wk es o := by
      intro es o h ho
      refine mayCall_of_reckoned (hloaded h.work h.raw) fun key field he => ?_
      rw [he] at ho
      exact ho.1
    have hstay : ∀ es o r, Loaded wk j v raw es → o.IsAside ∧ o.isFresh = true →
        Loaded wk j v raw (es ++ [⟨o, r⟩]) := by
      intro es o r h ho
      exact ⟨h.work.aside ho.1 ho.2 r, by rw [callsTo_aside ho.1]; exact h.raw⟩
    have hupdate := wp_aside hmay hstay (aside_phash (j := j) pp.phash) ⟨hwork, hraw⟩
    refine wp_bind_of hupdate (fun _ es' h => ?_) fun e es' h => hloaded h.work h.raw
    exact counting_cache h.work ⟨raw, h.raw, hpre⟩
  · exact hcache

/-- What a download under way, or over, tells of a failure. -/
theorem download_told (hwork : AtWork j v [.cdn, .cache, .triton, .bucket, .gemini] es)
    (hds : AllTo .cdn ds) {q : Py Bytes} (hq : Leads (downloadImage wk.cfg wk.lib v) ds q)
    (hf : StageFailure wk v (es ++ ds)) : ∃ e, e.isStorageTransientError = true ∧ q = .raise e := by
  have hafter := hwork.run (by decide) hds
  cases hf with
  | cdn hl he =>
    rw [hwork.own hds] at hl
    exact ⟨_, he, leads_unique hq hl⟩
  | triton _ hmiss _ _ =>
    obtain ⟨cachedRaw, hl, _⟩ := hmiss
    rw [hafter.unasked .cache (by decide)] at hl
    cases leads_nil.mp hl
  | gemini _ _ hgranted _ _ =>
    rw [hafter.unasked .bucket (by decide)] at hgranted
    cases leads_nil.mp hgranted

theorem counting_download (hwork : AtWork j v [.cdn, .cache, .triton, .bucket, .gemini] es)
    (record : JobRow) :
    wp (history (MayCall wk)) (fun _ => Reckoned wk j v) (downloadStage wk j v record) es := by
  refine wp_tryElse_of (wp_stage (x := .cdn)
    (onlyCalls_downloadImage wk.cfg wk.lib (fun _ => rfl) v) hwork.popped
    fun ds o k hds hl hf => ?_) (fun raw es' h => ?_) fun e es' h => ?_
  · obtain ⟨_, _, hraise⟩ := download_told hwork hds hl hf
    cases hraise
  · obtain ⟨ds, rfl, hds, hl⟩ := h
    have hafter := hwork.run (by decide) hds
    have hraw : Leads (downloadImage wk.cfg wk.lib v) (callsTo .cdn (es ++ ds)) (.ret raw) := by
      rwa [hwork.own hds]
    have hreckoned : Reckoned wk j v (es ++ ds) :=
      reckoned_of_not hafter.popped (not_failure_loaded hafter (by decide) hraw)
    refine (wp_tryElse _ _ _ _).mpr ((wp_ofExcept _ _).mpr ?_)
    cases hpre : preprocessImage wk.cfg wk.lib raw with
    | ok pp => exact counting_phash hafter hraw hpre record
    | error e =>
      simp only [branch_error]
      split
      · exact wp_reckoned (aside_fail _ _ _) hreckoned
      · exact hreckoned
  · obtain ⟨ds, rfl, hds, hl⟩ := h
    by_cases htransient : e.isStorageTransientError = true
    · have hpermanent : e.isPermanentPipelineError = false := by
        cases e <;> first | rfl | cases htransient
      rw [hpermanent, htransient]
      have hafter := hwork.run (by decide) hds
      refine wp_requeue ⟨hafter.popped, hafter.fresh, nofun⟩ (.cdn ?_ htransient)
      rwa [hwork.own hds]
    · have hreckoned : Reckoned wk j v (es ++ ds) :=
        reckoned_of_not (poppedJob_append hwork.popped ds) fun hf => by
          obtain ⟨_, he, hraise⟩ := download_told hwork hds hl hf
          cases hraise
          exact htransient he
      rw [if_neg htransient]
      split
      · exact wp_reckoned (aside_fail _ _ _) hreckoned
      · exact hreckoned

/-- A statement before the download. -/
theorem wp_statement {o : Op} (hwork : AtWork j v [.cdn, .cache, .triton, .bucket, .gemini] es)
    (ho : o.IsAside) (hfresh : o.isFresh = true) :
    wp (history (MayCall wk))
      (fun _ => AtWork j v [.cdn, .cache, .triton, .bucket, .gemini]) (wrapPgErrors (await o)) es := by
  have hearly : ∀ {es}, AtWork j v [.cdn, .cache, .triton, .bucket, .gemini] es →
      Reckoned wk j v es := fun h => reckoned_of_not h.popped (not_failure_early h (by decide))
  refine wp_aside (P := fun o => o.IsAside ∧ o.isFresh = true)
    (fun es o h ho => mayCall_of_reckoned (hearly h) fun key field he => by rw [he] at ho; exact ho.1)
    (fun es o r h ho => h.aside ho.1 ho.2 r)
    (onlyCalls_mapped (P := fun o => o.IsAside ∧ o.isFresh = true) ⟨ho, hfresh⟩ _) hwork

theorem counting_lifecycle (hwork : AtWork j v [.cdn, .cache, .triton, .bucket, .gemini] es) :
    wp (history (MayCall wk)) (fun _ => Reckoned wk j v) (executeTaskLifecycle wk j v) es := by
  have hearly : ∀ {es}, AtWork j v [.cdn, .cache, .triton, .bucket, .gemini] es →
      Reckoned wk j v es := fun h => reckoned_of_not h.popped (not_failure_early h (by decide))
  have hrefused : ∀ {es} (e : PyExc), AtWork j v [.cdn, .cache, .triton, .bucket, .gemini] es →
      wp (history (MayCall wk)) (fun _ => Reckoned wk j v)
        (if e.isDatabaseUnavailable then yieldToQueue j v else .raise e) es := by
    intro es e h
    split
    · exact wp_reckoned aside_yield (hearly h)
    · exact hearly h
  have hmark : ∀ {es} (record : JobRow), AtWork j v [.cdn, .cache, .triton, .bucket, .gemini] es →
      wp (history (MayCall wk)) (fun _ => Reckoned wk j v) (markStage wk j v record) es :=
    fun record h => wp_tryElse_of (wp_statement (o := .updateJob _ _) h rfl rfl)
      (fun _ es' h => counting_download h record) fun e es' h => hrefused e h
  refine wp_tryElse_of (R := fun _ => Reckoned wk j v) ?_ (fun _ es' h => h)
    fun e es' h => wp_reckoned (aside_handler e) h
  refine wp_tryElse_of (wp_statement (o := .selectJob _) hwork rfl rfl) (fun row es' h => ?_)
    fun e es' h => hrefused e h
  cases row with
  | none => exact hearly h
  | some record =>
    dsimp only
    split
    · exact hearly h
    · exact hmark record h

/-- What a pop has told. -/
theorem counting_pop : wp (history (MayCall wk))
    (fun x es => (∃ r, es = [⟨.brpop, r⟩]) ∧
      poppedJob es = match x with | .ok msg => readLoaded msg | .error _ => none)
    (popFromQueue jsonDepth) [] := by
  refine (wp_tryElse _ _ _ _).mpr ((wp_await _ _).mpr ⟨⟨nofun, nofun⟩, fun r _ => ?_⟩)
  cases r with
  | error e =>
    simp only [branch_error]
    split
    · exact ⟨⟨_, rfl⟩, rfl⟩
    · split <;> exact ⟨⟨_, rfl⟩, rfl⟩
  | ok val =>
    cases val with
    | none => exact ⟨⟨_, rfl⟩, rfl⟩
    | some val =>
      simp only [branch_ok]
      cases hdeep : tooDeep jsonDepth val with
      | some container =>
        rw [loadsWithin_tooDeep hdeep]
        exact ⟨⟨_, rfl⟩, decodeMessage_tooDeep hdeep⟩
      | none =>
        rw [loadsWithin_flat hdeep]
        exact ⟨⟨_, rfl⟩, (readLoaded_loads hdeep).symm⟩

/-- **A pass counts its failures**, and nothing else. -/
theorem obeys_counting (wk : Worker) : wp (history (MayCall wk)) (fun _ => MayEnd wk)
    (workerIteration jsonDepth (executeTaskLifecycle wk)) [] := by
  have hnothing : ∀ {es}, poppedJob es = none → MayEnd wk es := fun h j v hm => by
    cases h.symm.trans hm
  refine wp_bind_of counting_pop (fun msg es h => ?_) fun e es h => hnothing h.2
  obtain ⟨⟨r, rfl⟩, hpopped⟩ := h
  cases msg with
  | none => exact hnothing hpopped
  | some msg =>
    refine wp_tryElse_of (R := fun _ => MayEnd wk) ?_ (fun _ _ h => h) fun _ _ h => h
    change _ = readLoaded (some msg) at hpopped
    cases hmsg : readMessage msg with
    | error e =>
      simp only [readLoaded, hmsg] at hpopped
      exact hnothing hpopped
    | ok m =>
      simp only [readLoaded, hmsg] at hpopped
      have hwork : AtWork m.1 m.2 [.cdn, .cache, .triton, .bucket, .gemini] [⟨.brpop, r⟩] :=
        ⟨hpopped, fun ev hev => by rw [List.mem_singleton.mp hev]; rfl, fun x _ => by cases x <;> rfl⟩
      refine wp_mono (fun _ es h j v hm hf => ?_) (counting_lifecycle hwork)
      cases h.popped.symm.trans hm
      exact h.counted hf

end Pass

/-! ## 6. The failures of a run -/

section Runs

variable {D : Deployment} {w₀ : World} {tr : SysTrace} {s : SysState} {i p : Nat} {rest : Py Unit}
  {j : Uuid} {v : Json} {es es' : Calls}

theorem counting_task (h : D.sys.Run w₀ tr s) (ht : s.tasks[i]? = some ⟨.worker p, rest⟩) :
    wp (history (MayCall (D.worker p))) (fun _ => MayEnd (D.worker p)) rest (callsOf i tr) := by
  have hleads := h.leads ht
  exact wp_leads (obeys_counting (D.worker p)) hleads

/-- RUN: **a failure of a stage is counted**, or its pass waits on the HINCRBY and has pushed nothing. -/
theorem failure_counted (h : D.sys.Run w₀ tr s) (ht : s.tasks[i]? = some ⟨.worker p, rest⟩)
    (hm : poppedJob (callsOf i tr) = some (j, v))
    (hf : StageFailure (D.worker p) v (callsOf i tr)) :
    Counted j (callsOf i tr) ∨
      (∃ k, rest = .call (.hincrby (requeueKey j) requeueField) k) ∧ Fresh (callsOf i tr) := by
  have hwp := counting_task h ht
  cases rest with
  | ret a => exact Or.inl (hwp j v hm hf)
  | raise e => exact Or.inl (hwp j v hm hf)
  | call o k =>
    rcases hwp.1.counted j v hm hf with hcounted | ⟨rfl, hfresh⟩
    · exact Or.inl hcounted
    · exact Or.inr ⟨⟨k, rfl⟩, hfresh⟩

/-- Only passes of workers count. -/
theorem counter_is_worker (h : D.sys.Run w₀ tr s) {n : TaskName} (ht : s.tasks[i]? = some ⟨n, rest⟩)
    {key field : Str} {r : Except PyExc Nat} (hcall : ⟨.hincrby key field, r⟩ ∈ callsOf i tr) :
    ∃ p, n = .worker p := by
  have hno : (D.boot n).OnlyCalls (fun o => ∀ key field, o ≠ .hincrby key field) → ∃ p, n = .worker p :=
    fun honly => absurd rfl (((h.leads ht).onlyCalls honly).2 _ hcall key field)
  cases n with
  | worker p => exact ⟨p, rfl⟩
  | submit j u =>
    exact hno (onlyCalls_bind (onlyCalls_submit nofun (fun _ _ => nofun) (fun _ => nofun) _ u)
      fun _ => trivial)
  | sweep => exact hno (onlyCalls_sweep (fun _ _ => nofun) fun _ _ => nofun)
  | purge =>
    refine hno (onlyCalls_tryElse (onlyCalls_mapped (o := .deleteOld _) nofun _) (fun _ => trivial)
      fun _ => trivial)

/-- RUN: **every HINCRBY counts a failure of its pass**, before anything is pushed. -/
theorem count_of_failure (h : D.sys.Run w₀ tr s) (ht : s.tasks[i]? = some ⟨.worker p, rest⟩)
    {key field : Str} {r : Except PyExc Nat}
    (hes : callsOf i tr = es ++ ⟨.hincrby key field, r⟩ :: es') :
    ∃ j v, poppedJob es = some (j, v) ∧ key = requeueKey j ∧ field = requeueField ∧
      StageFailure (D.worker p) v es ∧ Fresh es := by
  have hleads := h.leads ht
  rw [hes] at hleads
  obtain ⟨k, hcall⟩ := hleads.at_call
  exact (wp_leads (obeys_counting (D.worker p)) hcall).1.counts key field rfl

end Runs

end InvoiceOcr
