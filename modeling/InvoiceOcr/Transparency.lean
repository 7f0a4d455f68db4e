/-
  File:      InvoiceOcr/Transparency.lean
  Subject:   THE PHASH CACHE IS TRANSPARENT. What a worker stores as SUCCEEDED is what it would
             have stored without the cache.

  * `Transcribes` -- detect and extract, run alone, can give this invoice for this image;
  * `Deployment.Functional` -- pHashes are hexadecimal, and detection and extraction are
    functions of the pHash under each prompt version;
  * `CacheSound` -- every entry is the dump of what extraction gives, not of what postprocessing
    made of it; the invariant of all runs;
  * `cacheMonitor` -- a worker pass as the cache sees it: the content it downloaded last, and the
    calls that content permits;
  * **`cache_transparent`** -- every cache access and every success write of every run is right.
-/
import InvoiceOcr.Footprint
import InvoiceOcr.Protocol
import InvoiceOcr.Replay

namespace InvoiceOcr

open PyJson Async

/-! ## 1. What extraction gives -/

/-- What a service may answer. -/
abbrev Answers := (o : Op) → Except PyExc (Ans o) → Prop

/-- **`detect_invoice`, then `extract_invoice`**, without a cache and on answers in `A`, can give
    `raw` for the image. -/
def Transcribes (A : Answers) (wk : Worker) (img : Image) (raw : InvoiceResult) : Prop :=
  ∃ es, Exec (fun (_ : Unit) o r (_ : Unit) => A o r)
    (detectInvoice wk.cfg wk.lib img >>= extractInvoice wk.cfg wk.lib) () es (.ok raw) ()

/-- Only hexadecimal digits. -/
def IsHex (s : Str) : Prop := ∀ c ∈ s, (hexValue c).isSome = true

/-- **Detection and extraction are functions of the pHash**, for each prompt version. -/
structure Deployment.Functional (D : Deployment) (A : Answers) : Prop where
  hex : ∀ {img : Image} {phash : Str}, D.lib.imagePhash img = .ok phash → IsHex phash
  unique : ∀ {p : Nat} {img : Image} {raw raw' : InvoiceResult}, Transcribes A (D.worker p) img raw →
    Transcribes A (D.worker p) img raw' → raw = raw'
  samePhash : ∀ {p : Nat} {img img' : Image} {phash : Str} {raw : InvoiceResult},
    D.lib.imagePhash img = .ok phash → D.lib.imagePhash img' = .ok phash →
    Transcribes A (D.worker p) img raw → Transcribes A (D.worker p) img' raw

/-- **Every entry is the dump of what extraction gives**, for every image with the pHash of its
    key under the version of its key. -/
def CacheSound (D : Deployment) (A : Answers) (w : World) : Prop :=
  ∀ {p : Nat} {img : Image} {phash text : Str}, D.lib.imagePhash img = .ok phash →
    w.strings ((D.worker p).cfg.phashCacheKey phash) = some text →
    ∃ raw, Transcribes A (D.worker p) img raw ∧ text = dumps (.obj raw.modelDump)

/-- An empty cache is sound. -/
theorem cacheSound_empty (D : Deployment) (A : Answers) {w : World} (h : w.strings = fun _ => none) :
    CacheSound D A w := fun _ ht => by
  rw [h] at ht
  simp at ht

/-! ## 2. Keys -/

theorem not_colon_of_isHex {s : Str} (h : IsHex s) : ':' ∉ s := fun hm => by
  have := h _ hm
  cases this

/-- A text is split at its first colon in one way. -/
theorem split_unique : ∀ {a b x y : Str}, ':' ∉ a → ':' ∉ b → a ++ ':' :: x = b ++ ':' :: y →
    a = b ∧ x = y
  | [], [], _, _, _, _, h => ⟨rfl, (List.cons.inj h).2⟩
  | [], c :: b, _, _, _, hb, h => by
    have hc : ':' = c := (List.cons.inj h).1
    exact absurd (hc ▸ List.mem_cons_self) hb
  | c :: a, [], _, _, ha, _, h => by
    have hc : c = ':' := (List.cons.inj h).1
    exact absurd (hc ▸ List.mem_cons_self) ha
  | c :: a, d :: b, _, _, ha, hb, h => by
    obtain ⟨hc, ht⟩ := List.cons.inj h
    have hsplit := split_unique (fun hm => ha (List.mem_cons_of_mem _ hm))
      (fun hm => hb (List.mem_cons_of_mem _ hm)) ht
    exact ⟨by rw [hc, hsplit.1], hsplit.2⟩

/-- **A key says its pHash and its version.** -/
theorem phashCacheKey_injective {cfg cfg' : Settings} {phash phash' : Str} (h : IsHex phash)
    (h' : IsHex phash') (hk : cfg.phashCacheKey phash = cfg'.phashCacheKey phash') :
    phash = phash' ∧ cfg.promptSemanticVersion = cfg'.promptSemanticVersion := by
  have hrest : phash ++ ':' :: ("psv:".toList ++ cfg.promptSemanticVersion) =
      phash' ++ ':' :: ("psv:".toList ++ cfg'.promptSemanticVersion) := by
    unfold Settings.phashCacheKey at hk
    simp only [List.append_assoc] at hk
    exact List.append_cancel_left hk
  obtain ⟨hphash, hversion⟩ := split_unique (not_colon_of_isHex h) (not_colon_of_isHex h') hrest
  exact ⟨hphash, List.append_cancel_left hversion⟩

/-- Workers of one version are one worker up to their whitelist. -/
theorem transcribes_of_version {D : Deployment} {A : Answers} {p p' : Nat} {img : Image}
    {raw : InvoiceResult}
    (hv : (D.worker p).cfg.promptSemanticVersion = (D.worker p').cfg.promptSemanticVersion)
    (h : Transcribes A (D.worker p) img raw) : Transcribes A (D.worker p') img raw := by
  have hcfg : (D.worker p).cfg = (D.worker p').cfg := by
    have hv' : (D.process p).promptSemanticVersion = (D.process p').promptSemanticVersion := hv
    unfold Deployment.worker
    rw [hv']
  unfold Transcribes at h ⊢
  rw [← hcfg]
  exact h

/-! ## 3. The monitor -/

/-- The image a pass works on: the content it downloaded, preprocessed. -/
def Prepared (D : Deployment) (p : Nat) (content : Option Bytes) (pp : PreprocessResult) : Prop :=
  ∃ bytes, content = some bytes ∧ preprocessImage (D.worker p).cfg D.lib bytes = .ok pp

/-- **What a success write must store.** -/
def StoresResult (D : Deployment) (A : Answers) (p : Nat) (content : Option Bytes) (set : JobSet) :
    Prop :=
  ∃ pp raw final, Prepared D p content pp ∧ Transcribes A (D.worker p) pp.pil raw ∧
    (D.worker p).postprocess raw = .ok final ∧ set = successSet final

/-- What a cache write must store. -/
def StoresRaw (D : Deployment) (A : Answers) (p : Nat) (content : Option Bytes) (key value : Str) :
    Prop :=
  ∃ pp raw, Prepared D p content pp ∧ Transcribes A (D.worker p) pp.pil raw ∧
    key = (D.worker p).cfg.phashCacheKey pp.phash ∧ value = dumps (.obj raw.modelDump)

/-- What a cache read must ask for. -/
def AsksOwn (D : Deployment) (p : Nat) (content : Option Bytes) (key : Str) : Prop :=
  ∃ pp, Prepared D p content pp ∧ key = (D.worker p).cfg.phashCacheKey pp.phash

/-- A pass of a worker with the content it downloaded last, or another task. -/
inductive Reader where
  | worker (p : Nat) (content : Option Bytes)
  | other

namespace Reader

variable (D : Deployment) (A : Answers)

/-- The calls of a task that the cache can tell from none. -/
def pre : Reader → Op → Prop
  | .worker p content, .updateJob _ set => set.status = .succeeded → StoresResult D A p content set
  | .worker p content, .setex key _ value => StoresRaw D A p content key value
  | .worker p content, .get key => AsksOwn D p content key
  | .worker _ _, _ => True
  | .other, .updateJob _ set => set.status ≠ .succeeded
  | .other, .setex _ _ _ => False
  | .other, .get _ => False
  | .other, _ => True

/-- Entries are sound, services answer in `A`. -/
def rely : Reader → (o : Op) → Except PyExc (Ans o) → Prop
  | .worker p _, .get key, r => ∀ {img : Image} {phash text : Str},
      D.lib.imagePhash img = .ok phash → key = (D.worker p).cfg.phashCacheKey phash →
      r = .ok (some text) →
      ∃ raw, Transcribes A (D.worker p) img raw ∧ text = dumps (.obj raw.modelDump)
  | _, o, r => o.isStage = true → A o r

/-- A response is the content from then on. -/
def next : Reader → (o : Op) → Except PyExc (Ans o) → Reader
  | .worker p _, .request _, .ok resp => .worker p (some resp.content)
  | c, _, _ => c

end Reader

/-- The monitor of the cache. -/
def cacheMonitor (D : Deployment) (A : Answers) : Monitor Op Ans PyExc Reader where
  pre := Reader.pre D A
  rely := Reader.rely D A
  next := Reader.next

/-! ## 4. Every task obeys -/

/-- A call that neither reads nor writes the cache, stores no result and downloads nothing. -/
def Op.IsInert : Op → Prop
  | .updateJob _ set => set.status ≠ .succeeded
  | .setex _ _ _ => False
  | .get _ => False
  | .request _ => False
  | _ => True

section Obeys

variable {D : Deployment} {A : Answers}

theorem pre_of_isInert (c : Reader) {o : Op} (h : o.IsInert) : (cacheMonitor D A).pre c o := by
  cases c <;> cases o <;> first | exact trivial | exact h.elim

theorem next_of_isInert (c : Reader) {o : Op} (h : o.IsInert) (r : Except PyExc (Ans o)) :
    (cacheMonitor D A).next c o r = c := by
  cases c <;> cases o <;> first | rfl | exact h.elim

theorem rely_of_isInert (c : Reader) {o : Op} (h : o.IsInert) {r : Except PyExc (Ans o)}
    (hr : (cacheMonitor D A).rely c o r) (ho : o.isStage = true) : A o r := by
  cases c <;> cases o <;> first | exact hr ho | exact h.elim

/-- An inert body leaves the cache and the content alone. -/
theorem wp_inert {α : Type} {Q : Except PyExc α → Reader → Prop} {c : Reader} {p : Py α}
    (hp : p.OnlyCalls Op.IsInert) (hQ : ∀ r, Q r c) : wp (cacheMonitor D A) Q p c :=
  wp_quiet (fun _ ho => pre_of_isInert c ho) (fun _ r ho => next_of_isInert c ho r) hp hQ

theorem inert_update (j : Uuid) {set : JobSet} (h : set.status ≠ .succeeded) :
    (updateJobStatus j set).OnlyCalls Op.IsInert :=
  onlyCalls_mapped h _

theorem inert_of_isClosing {o : Op} (h : o.IsClosing) : o.IsInert := by
  cases o with
  | updateJob j set =>
    intro hs
    have hfailed : set.status.isFailed = true := h
    rw [hs] at hfailed
    cases hfailed
  | _ => first | exact trivial | exact h.elim

theorem inert_fail (j : Uuid) (isPermanent : Bool) (code msg : Str) :
    (fail j isPermanent code msg).OnlyCalls Op.IsInert :=
  onlyCalls_mono (fun _ h => inert_of_isClosing h) (closing_fail isPermanent code msg)

theorem inert_yield (j : Uuid) (v : Json) : (yieldToQueue j v).OnlyCalls Op.IsInert :=
  onlyCalls_mono (fun _ h => inert_of_isClosing h) closing_yield

theorem inert_requeue (cfg : Settings) (j : Uuid) (v : Json) :
    (requeueCounted cfg j v).OnlyCalls Op.IsInert :=
  onlyCalls_mono (fun _ h => inert_of_isClosing h) closing_requeue

theorem inert_handler (j : Uuid) (e : PyExc) : (lifecycleHandler j e).OnlyCalls Op.IsInert :=
  onlyCalls_mono (fun _ h => inert_of_isClosing h) (closing_handler e)

end Obeys

section Lifecycle

variable {D : Deployment} {A : Answers} {p : Nat} {j : Uuid} {v : Json}

/-- Still the pass of that worker. -/
def OfWorker {α : Type} (p : Nat) (_ : Except PyExc α) (c : Reader) : Prop :=
  ∃ content, c = .worker p content

theorem wp_inert_worker {α : Type} {q : Py α} (hq : q.OnlyCalls Op.IsInert)
    (content : Option Bytes) : wp (cacheMonitor D A) (OfWorker p) q (.worker p content) :=
  wp_inert hq fun _ => ⟨content, rfl⟩

/-- Preprocessing pairs the image with its pHash. -/
theorem imagePhash_of_preprocess {cfg : Settings} {lib : Externals} {raw : Bytes}
    {pp : PreprocessResult} (h : preprocessImage cfg lib raw = .ok pp) :
    lib.imagePhash pp.pil = .ok pp.phash := by
  have hlast : ∀ {img : Image}, (do let phash ← lib.imagePhash img; return ⟨img, phash⟩) =
      (.ok pp : Except PyExc PreprocessResult) → lib.imagePhash pp.pil = .ok pp.phash := by
    intro img himg
    obtain ⟨phash, hphash, he⟩ := Proc.bind_eq_ok himg
    cases he
    exact hphash
  have hsmall : ∀ {img : Image}, (do
      let img ← if cfg.maxImageDimension < max img.width img.height then
          lib.thumbnail img cfg.maxImageDimension
        else .ok img
      let phash ← lib.imagePhash img
      return ⟨img, phash⟩) = (.ok pp : Except PyExc PreprocessResult) →
      lib.imagePhash pp.pil = .ok pp.phash := by
    intro img himg
    split at himg
    · obtain ⟨small, -, hs⟩ := Proc.bind_eq_ok himg
      exact hlast hs
    · exact hlast himg
  unfold preprocessImage at h
  split at h
  · obtain ⟨img, -, h⟩ := Proc.bind_eq_ok h
    obtain ⟨turned, -, h⟩ := Proc.bind_eq_ok h
    dsimp only at h
    split at h
    · obtain ⟨rgb, -, h⟩ := Proc.bind_eq_ok h
      exact hsmall h
    · exact hsmall h
  · cases h

variable {content : Option Bytes} {pp : PreprocessResult}

/-- A result that is stored is what extraction gives, postprocessed. -/
theorem transparent_finish (hp : Prepared D p content pp) {raw : InvoiceResult}
    (hraw : Transcribes A (D.worker p) pp.pil raw) :
    wp (cacheMonitor D A) (OfWorker p) (finish (D.worker p) j v raw) (.worker p content) := by
  unfold finish
  refine (wp_tryElse _ _ _ _).mpr ((wp_ofExcept _ _).mpr ?_)
  cases hfinal : (D.worker p).postprocess raw with
  | error e => exact ⟨content, rfl⟩
  | ok final =>
    have hwrite : wp (cacheMonitor D A) (fun _ c => c = .worker p content)
        (updateJobStatus j (successSet final)) (.worker p content) :=
      wp_mapped (M := cacheMonitor D A) (o := .updateJob j (successSet final))
        (fun _ => ⟨pp, raw, final, hp, hraw, hfinal, rfl⟩) (fun _ _ => rfl) fun _ _ => rfl
    refine wp_tryElse_of hwrite (fun _ c hc => ⟨content, hc⟩) fun e c hc => ?_
    subst hc
    split
    · exact wp_inert_worker (inert_yield j v) content
    · exact ⟨content, rfl⟩

theorem inert_of_isModel {o : Op} (h : o.IsModel) : o.IsInert := by
  cases o <;> first | exact trivial | exact h.elim

/-- Detection and extraction under the monitor are detection and extraction run alone. -/
theorem wp_model {α : Type} {q : Py α} (hq : q.OnlyCalls Op.IsModel) :
    wp (cacheMonitor D A)
      (fun x c => c = .worker p content ∧
        ∃ es, Exec (fun (_ : Unit) o r (_ : Unit) => A o r) q () es x ())
      q (.worker p content) := by
  refine wp_of_exec (fun o ho => pre_of_isInert _ (inert_of_isModel ho))
    (fun o r ho => next_of_isInert _ (inert_of_isModel ho) r) (fun o r ho hr => ?_) hq
    fun es x hx => ⟨rfl, es, hx⟩
  exact rely_of_isInert _ (inert_of_isModel ho) hr ho.isStage

/-- What is cached is what extraction gave, before postprocessing. -/
theorem transparent_extract (hp : Prepared D p content pp) {crop : Image}
    {es : List (Event Op Ans PyExc)}
    (hdetect : Exec (fun (_ : Unit) o r (_ : Unit) => A o r)
      (detectInvoice (D.worker p).cfg D.lib pp.pil) () es (.ok crop) ()) :
    wp (cacheMonitor D A) (OfWorker p) (extractStage (D.worker p) j v pp.phash crop)
      (.worker p content) := by
  refine wp_tryElse_of (wp_model (model_extractInvoice _ _ crop)) (fun raw c hc => ?_)
    fun e c hc => ?_
  · obtain ⟨rfl, es', hextract⟩ := hc
    have hraw : Transcribes A (D.worker p) pp.pil raw :=
      ⟨es ++ es', (exec_tryElse _ _ _ _).mpr ⟨es, (), es', rfl, Or.inl ⟨crop, hdetect, hextract⟩⟩⟩
    have hsave : wp (cacheMonitor D A) (fun _ c => c = .worker p content)
        (setPhashCache (D.worker p).cfg pp.phash raw.modelDump) (.worker p content) :=
      wp_mapped (M := cacheMonitor D A) (o := .setex _ _ _) ⟨pp, raw, hp, hraw, rfl, rfl⟩
        (fun _ _ => rfl) fun _ _ => rfl
    refine wp_bind_of (R := fun _ c => c = .worker p content) ?_ (fun _ c hc => ?_)
      fun e c hc => ⟨content, hc⟩
    · refine wp_tryElse_of hsave (fun _ c hc => hc) fun e c hc => ?_
      split <;> exact hc
    · subst hc
      exact transparent_finish hp hraw
  · obtain ⟨rfl, -⟩ := hc
    split
    · exact wp_inert_worker (inert_yield j v) content
    · split
      · exact wp_inert_worker (inert_requeue _ j v) content
      · split
        · exact wp_inert_worker (inert_fail j _ _ _) content
        · exact ⟨content, rfl⟩

theorem transparent_detect (hp : Prepared D p content pp) :
    wp (cacheMonitor D A) (OfWorker p) (detectStage (D.worker p) j v pp) (.worker p content) := by
  refine wp_tryElse_of (wp_model (model_detectInvoice _ _ pp.pil)) (fun crop c hc => ?_)
    fun e c hc => ?_
  · obtain ⟨rfl, es, hdetect⟩ := hc
    have hgrant : (await .acquire : Py Bool).OnlyCalls Op.IsInert := onlyCalls_await trivial
    refine wp_bind_of (R := fun _ c => c = .worker p content) (wp_inert hgrant fun _ => rfl)
      (fun granted c hc => ?_) fun e c hc => ⟨content, hc⟩
    subst hc
    cases granted with
    | true => exact transparent_extract hp hdetect
    | false => exact wp_inert_worker (inert_yield j v) content
  · obtain ⟨rfl, -⟩ := hc
    split
    · exact wp_inert_worker (inert_fail j _ _ _) content
    · split
      · exact wp_inert_worker (inert_requeue _ j v) content
      · exact ⟨content, rfl⟩

/-- What a lookup may return. -/
def Found (D : Deployment) (A : Answers) (p : Nat) (pp : PreprocessResult) : Option Json → Prop
  | none => True
  | some payload => ∃ raw : InvoiceResult, Transcribes A (D.worker p) pp.pil raw ∧
      payload = .obj raw.modelDump

/-- **A hit is what extraction would give**: the entry is a dump, and loading it undoes that. -/
theorem found_getPhashCache (hp : Prepared D p content pp) :
    wp (cacheMonitor D A)
      (fun x c => c = .worker p content ∧ ∀ cached, x = .ok cached → Found D A p pp cached)
      (getPhashCache (D.worker p).cfg pp.phash) (.worker p content) := by
  obtain ⟨bytes, rfl, hpp⟩ := hp
  have hphash : D.lib.imagePhash pp.pil = .ok pp.phash := imagePhash_of_preprocess hpp
  have hread : wp (cacheMonitor D A)
      (fun x c => c = .worker p (some bytes) ∧ ∀ text, x = .ok (some text) →
        ∃ raw, Transcribes A (D.worker p) pp.pil raw ∧ text = dumps (.obj raw.modelDump))
      (wrapRedisErrors "redis get_phash_cache".toList
        (await (.get ((D.worker p).cfg.phashCacheKey pp.phash)))) (.worker p (some bytes)) := by
    refine wp_mapped (M := cacheMonitor D A) (o := .get _) ⟨pp, ⟨bytes, rfl, hpp⟩, rfl⟩
      (fun val hr => ⟨rfl, fun text ht => hr hphash rfl ht⟩) fun e _ => ⟨rfl, fun _ ht => ?_⟩
    cases ht
  refine wp_bind_of hread (fun val c hc => ?_) fun e c hc => ⟨hc.1, fun _ hx => by simp at hx⟩
  cases val with
  | none => exact ⟨hc.1, fun _ hx => by cases hx; exact trivial⟩
  | some text =>
    obtain ⟨raw, hraw, rfl⟩ := hc.2 text rfl
    refine ⟨hc.1, fun cached hx => ?_⟩
    have hload : loadsOrNone (dumps (.obj raw.modelDump)) = some (.obj raw.modelDump) := by
      unfold loadsOrNone
      rw [loads_modelDump]
    cases hx
    rw [hload]
    exact ⟨raw, hraw, rfl⟩

theorem transparent_cache (hp : Prepared D p content pp) :
    wp (cacheMonitor D A) (OfWorker p) (cacheStage (D.worker p) j v pp) (.worker p content) := by
  have hlookup : wp (cacheMonitor D A)
      (fun x c => c = .worker p content ∧ ∀ cached, x = .ok cached → Found D A p pp cached)
      ((getPhashCache (D.worker p).cfg pp.phash).tryCatch fun e =>
        if e.isStorageTransientError then .ret none else .raise e) (.worker p content) := by
    refine wp_tryElse_of (found_getPhashCache hp) (fun val c hc => hc) fun e c hc => ?_
    split
    · exact ⟨hc.1, fun _ hx => by cases hx; exact trivial⟩
    · exact ⟨hc.1, fun _ hx => by simp at hx⟩
  refine wp_bind_of hlookup (fun cached c hc => ?_) fun e c hc => ⟨content, hc.1⟩
  obtain ⟨rfl, hfound⟩ := hc
  cases cached with
  | none => exact transparent_detect hp
  | some payload =>
    obtain ⟨raw, hraw, rfl⟩ := hfound _ rfl
    have hvalid : cachedInvoice (some (.obj raw.modelDump)) = some raw := by
      simp only [cachedInvoice, InvoiceResult.modelValidate_dump]
    rw [hvalid]
    exact transparent_finish hp hraw

theorem transparent_phash (record : JobRow) (hp : Prepared D p content pp) :
    wp (cacheMonitor D A) (OfWorker p) (phashStage (D.worker p) j v record pp)
      (.worker p content) := by
  unfold phashStage
  split
  · have hmark : (updateJobStatus j (phashSet pp.phash)).OnlyCalls Op.IsInert :=
      inert_update j nofun
    refine wp_bind_of (R := fun _ c => c = .worker p content)
      (wp_inert (onlyCalls_tryElse hmark (fun e => ?_) fun _ => trivial) fun _ => rfl)
      (fun _ c hc => ?_) fun e c hc => ⟨content, hc⟩
    · split <;> exact trivial
    · subst hc
      exact transparent_cache hp
  · exact transparent_cache hp

theorem transparent_preprocess (record : JobRow) (bytes : Bytes) :
    wp (cacheMonitor D A) (OfWorker p) (preprocessStage (D.worker p) j v record bytes)
      (.worker p (some bytes)) := by
  refine (wp_tryElse _ _ _ _).mpr ((wp_ofExcept _ _).mpr ?_)
  cases hpp : preprocessImage (D.worker p).cfg (D.worker p).lib bytes with
  | ok pp => exact transparent_phash record ⟨bytes, rfl, hpp⟩
  | error e =>
    simp only [branch_error]
    split
    · exact wp_inert_worker (inert_fail j _ _ _) _
    · exact ⟨_, rfl⟩

/-- After a download the content is the response's. -/
def Downloaded {α : Type} (f : α → Bytes) (p : Nat) (x : Except PyExc α) (c : Reader) : Prop :=
  OfWorker p x c ∧ ∀ a, x = .ok a → c = .worker p (some (f a))

theorem downloaded_httpxGet : ∀ (fuel : Nat) (url : Str) (content : Option Bytes),
    wp (cacheMonitor D A) (Downloaded (fun resp => resp.content) p) (httpxGet D.lib fuel url)
      (.worker p content)
  | fuel, url, content => by
    unfold httpxGet
    refine (wp_bind _ _ _).mpr ((wp_await _ _).mpr ⟨trivial, fun r _ => ?_⟩)
    cases r with
    | error e => exact ⟨⟨content, rfl⟩, fun a ha => by simp at ha⟩
    | ok resp =>
      simp only [branch_ok]
      cases resp.redirect? with
      | none => exact ⟨⟨_, rfl⟩, fun a ha => by cases ha; rfl⟩
      | some location =>
        cases fuel with
        | zero => exact ⟨⟨_, rfl⟩, fun a ha => by simp at ha⟩
        | succ fuel =>
          refine (wp_bind _ _ _).mpr ((wp_ofExcept _ _).mpr ?_)
          cases D.lib.redirectUrl url location with
          | error e => exact ⟨⟨_, rfl⟩, fun a ha => by simp at ha⟩
          | ok next => exact downloaded_httpxGet fuel next _

/-- A response that passes the checks is returned whole. -/
theorem content_of_checkResponse {cfg : Settings} {url : Str} {resp : HttpResponse} {raw : Bytes}
    (h : checkResponse cfg url resp = .ok raw) : raw = resp.content := by
  unfold checkResponse at h
  split at h
  · simp at h
  · split at h
    · simp at h
    · split at h
      · simp at h
      · split at h
        · simp at h
        · exact (Except.ok.inj h).symm

theorem downloaded_downloadImage (cfg : Settings) (imageUrl : Json) :
    wp (cacheMonitor D A) (Downloaded id p) (downloadImage cfg D.lib imageUrl)
      (.worker p content) := by
  cases imageUrl with
  | str url =>
    refine wp_tryElse_of (R := Downloaded id p) ?_ (fun raw c hc => hc) fun e c hc => ⟨hc.1, nofun⟩
    refine wp_bind_of (downloaded_httpxGet maxRedirects url content) (fun resp c hc => ?_)
      fun e c hc => ⟨hc.1, nofun⟩
    obtain rfl := hc.2 resp rfl
    refine (wp_ofExcept _ _).mpr ⟨⟨_, rfl⟩, fun raw hraw => ?_⟩
    rw [content_of_checkResponse hraw]
    exact rfl
  | _ => exact ⟨⟨content, rfl⟩, nofun⟩

theorem transparent_download (record : JobRow) :
    wp (cacheMonitor D A) (OfWorker p) (downloadStage (D.worker p) j v record)
      (.worker p content) := by
  refine wp_tryElse_of (downloaded_downloadImage _ v) (fun raw c hc => ?_) fun e c hc => ?_
  · obtain rfl := hc.2 raw rfl
    exact transparent_preprocess record raw
  · obtain ⟨content, rfl⟩ := hc.1
    split
    · exact wp_inert_worker (inert_fail j _ _ _) content
    · split
      · exact wp_inert_worker (inert_requeue _ j v) content
      · exact ⟨content, rfl⟩

/-- A refused statement: yield, or raise. -/
theorem transparent_refused (e : PyExc) :
    wp (cacheMonitor D A) (OfWorker p)
      (if e.isDatabaseUnavailable then yieldToQueue j v else .raise e) (.worker p content) := by
  split
  · exact wp_inert_worker (inert_yield j v) content
  · exact ⟨content, rfl⟩

theorem transparent_body :
    wp (cacheMonitor D A) (OfWorker p) (lifecycleBody (D.worker p) j v) (.worker p content) := by
  have hread : (getJobRecord j).OnlyCalls Op.IsInert :=
    onlyCalls_mapped (o := .selectJob _) trivial _
  have hmark : (updateJobStatus j processingSet).OnlyCalls Op.IsInert := inert_update j nofun
  refine wp_tryElse_of (R := fun _ c => c = .worker p content) (wp_inert hread fun _ => rfl)
    (fun row c hc => ?_) fun e c hc => hc ▸ transparent_refused e
  subst hc
  cases row with
  | none => exact ⟨content, rfl⟩
  | some record =>
    simp only
    split
    · exact ⟨content, rfl⟩
    · refine wp_tryElse_of (R := fun _ c => c = .worker p content) (wp_inert hmark fun _ => rfl)
        (fun _ c hc => ?_) fun e c hc => hc ▸ transparent_refused e
      exact hc ▸ transparent_download record

/-- **A lifecycle is transparent.** -/
theorem transparent_lifecycle :
    wp (cacheMonitor D A) (OfWorker p) (executeTaskLifecycle (D.worker p) j v)
      (.worker p content) := by
  refine wp_tryElse_of transparent_body (fun _ c hc => hc) fun e c hc => ?_
  obtain ⟨content, rfl⟩ := hc
  exact wp_inert_worker (inert_handler j e) content

theorem transparent_iteration :
    wp (cacheMonitor D A) (OfWorker p)
      (workerIteration jsonDepth (executeTaskLifecycle (D.worker p))) (.worker p none) := by
  refine wp_bind_of (R := fun _ c => c = .worker p none) (wp_inert (onlyCalls_pop trivial _) fun _ => rfl)
    (fun msg c hc => ?_) fun e c hc => ⟨none, hc⟩
  subst hc
  cases msg with
  | none => exact ⟨none, rfl⟩
  | some msg =>
    refine wp_tryElse_of (R := OfWorker p) ?_ (fun _ c hc => hc) fun e c hc => hc
    refine (wp_tryElse _ _ _ _).mpr ((wp_ofExcept _ _).mpr ?_)
    cases readMessage msg with
    | error e => exact ⟨none, rfl⟩
    | ok m => exact transparent_lifecycle

end Lifecycle

/-- The situations of the tasks that are no worker pass. -/
def Phase.IsOther : Phase → Prop
  | .submitting _ _ => True
  | .inserted _ _ => True
  | .sweepReady => True
  | .sweeping _ => True
  | .purging => True
  | .ended => True
  | _ => False

/-- Requests and daemons have nothing to do with the cache. -/
theorem inert_of_obeys {cfg : Settings} {α : Type} {Q : Except PyExc α → Phase → Prop} {q : Py α}
    {s : Phase} (hq : wp (monitor cfg) Q q s) (hs : s.IsOther) : q.OnlyCalls Op.IsInert := by
  refine onlyCalls_of_wp (N := Phase.IsOther) (fun s o hs hpre => ?_) (fun s o r hs hpre => ?_)
    (fun _ _ _ => trivial) hq hs
  · cases s with
    | submitting j u => rcases hpre with rfl | rfl <;> exact trivial
    | inserted j u => cases hpre; exact trivial
    | sweepReady => cases hpre; exact trivial
    | sweeping rows =>
      obtain ⟨row, rows, rfl, rfl⟩ := hpre
      exact nofun
    | purging => cases hpre; exact trivial
    | ended => exact hpre.elim
    | _ => exact hs.elim
  · have hadv := advance hpre r
    show (Phase.next cfg s o r).IsOther
    generalize Phase.next cfg s o r = s' at hadv
    cases hadv with
    | run hj _ => cases s <;> first | exact hs.elim | exact hj.elim
    | popped => exact hs.elim
    | read => exact hs.elim
    | readFailed => exact hs.elim
    | _ => exact trivial

/-- **The protocol of the cache.** -/
def Deployment.cacheProtocol (D : Deployment) (A : Answers) : D.sys.Protocol Reader where
  toMonitor := cacheMonitor D A
  start
    | .worker p => .worker p none
    | _ => .other
  final _ _ := True
  boots
    | .worker p => wp_mono (fun _ _ _ => trivial) (transparent_iteration (p := p))
    | .submit j u => wp_inert (inert_of_obeys (D.protocol.boots (.submit j u)) trivial) fun _ => trivial
    | .sweep => wp_inert (inert_of_obeys (obeys_sweep D.cfg) trivial) fun _ => trivial
    | .purge => wp_inert (inert_of_obeys (obeys_purge D.cfg) trivial) fun _ => trivial

/-! ## 5. Runs -/

/-- The content a task downloaded last: that of the last response to a request of its. -/
def lastContent (i : Nat) : SysTrace → Option Bytes
  | [] => none
  | (_, .call k (.request _) (.ok resp)) :: tr =>
    if k = i then some resp.content else lastContent i tr
  | _ :: tr => lastContent i tr

/-- The services answer in `A`. -/
def AnsweredIn (A : Answers) : Label Op Ans PyExc TaskName → Prop
  | .call _ o r => o.isStage = true → A o r
  | _ => True

/-- A task as the cache sees it. -/
def TaskName.reader (content : Option Bytes) : TaskName → Reader
  | .worker p => .worker p content
  | _ => .other

/-- The invariant of all runs. -/
structure CacheInv (D : Deployment) (A : Answers) (tr : SysTrace) (s : SysState)
    (cs : List Reader) : Prop where
  sound : CacheSound D A s.world
  readers : ∀ (i : Nat) (t : Task Op Ans PyExc TaskName), s.tasks[i]? = some t →
    cs[i]? = some (t.name.reader (lastContent i tr))
  unstarted : ∀ i, s.tasks.length ≤ i → lastContent i tr = none

section Runs

variable {D : Deployment} {A : Answers} {w₀ : World} {tr : SysTrace} {s : SysState}

/-- A raw dump under its own key keeps the cache sound. -/
theorem sound_stored (hfun : D.Functional A) {w w' : World} (h : CacheSound D A w) {p : Nat}
    {content : Option Bytes} {key value : Str} (hraw : StoresRaw D A p content key value)
    (hw : w'.strings = fun k => if k = key then some value else w.strings k) :
    CacheSound D A w' := by
  intro p' img' phash' text hphash' htext
  obtain ⟨pp, raw, ⟨bytes, rfl, hpp⟩, hextract, rfl, rfl⟩ := hraw
  have hphash : D.lib.imagePhash pp.pil = .ok pp.phash := imagePhash_of_preprocess hpp
  simp only [hw] at htext
  by_cases hk : (D.worker p').cfg.phashCacheKey phash' = (D.worker p).cfg.phashCacheKey pp.phash
  · rw [if_pos hk] at htext
    obtain ⟨rfl, hversion⟩ := phashCacheKey_injective (hfun.hex hphash') (hfun.hex hphash) hk
    have hsame : Transcribes A (D.worker p) img' raw := hfun.samePhash hphash hphash' hextract
    exact ⟨raw, transcribes_of_version hversion.symm hsame, (Option.some.inj htext).symm⟩
  · rw [if_neg hk] at htext
    exact h hphash' htext

/-- What a task does not do itself does not change what it downloaded. -/
theorem lastContent_call {i k : Nat} (hik : k ≠ i) {o : Op} {r : Except PyExc (Ans o)} :
    lastContent i ((s, .call k o r) :: tr) = lastContent i tr := by
  cases o with
  | request url =>
    cases r with
    | error e => rfl
    | ok resp => exact if_neg hik
  | _ => rfl

/-- An answer takes a task from one situation to the next. -/
theorem reader_call (i : Nat) (n : TaskName) (o : Op) (r : Except PyExc (Ans o)) :
    Reader.next (n.reader (lastContent i tr)) o r =
      n.reader (lastContent i ((s, .call i o r) :: tr)) := by
  cases n with
  | worker p =>
    cases o with
    | request url =>
      cases r with
      | error e => rfl
      | ok resp =>
        have hlast : lastContent i ((s, .call i (.request url) (.ok resp)) :: tr) =
            some resp.content := if_pos rfl
        rw [hlast]
        rfl
    | _ => rfl
  | _ => cases o <;> rfl

/-- What a sound cache and the services deliver. -/
theorem rely_of_sound {w w' : World} (h : CacheSound D A w) {c : Reader} {i : Nat} {o : Op}
    {r : Except PyExc (Ans o)} (hsem : Sem w o r w') (hans : AnsweredIn A (.call i o r)) :
    Reader.rely D A c o r := by
  cases c with
  | other => exact hans
  | worker p content =>
    cases o with
    | get key =>
      intro img phash text hphash hkey hr
      subst hr hkey
      exact h hphash hsem.1.symm
    | _ => exact hans

/-- **Every reachable cache is sound**, and every task stands where its calls put it. -/
theorem cacheInv_run (hfun : D.Functional A) (hcache : CacheSound D A w₀)
    (h : D.sys.Run w₀ tr s) (hans : ∀ e ∈ tr, AnsweredIn A e.2) :
    (D.cacheProtocol A).Obeyed tr s ∧ CacheInv D A tr s ((D.cacheProtocol A).phases tr) := by
  refine Sys.Protocol.run_invariant (D.cacheProtocol A) (G := fun _ l => AnsweredIn A l)
    (I := CacheInv D A) ⟨hcache, nofun, fun _ _ => rfl⟩ ?_ ?_ ?_ h hans
  · intro tr s i n o k r w' c hr hob hinv ht hc hpre hsem hans
    obtain rfl : n.reader (lastContent i tr) = c :=
      Option.some.inj ((hinv.readers i _ ht).symm.trans hc)
    refine ⟨rely_of_sound hinv.sound hsem hans, ?_, fun m t hm => ?_, fun m hm => ?_⟩
    · cases stringsChange_of_sem hsem with
      | same hsame =>
        intro p img phash text hphash htext
        rw [hsame] at htext
        exact hinv.sound hphash htext
      | stored hstored =>
        obtain ⟨p, rfl⟩ : ∃ p, n = .worker p := by
          cases n <;> first | exact ⟨_, rfl⟩ | exact hpre.elim
        exact sound_stored hfun hinv.sound hpre hstored
    · rcases getElem?_set_cases hm with ⟨rfl, rfl⟩ | ⟨hne, hm⟩
      · have hlt := (List.getElem?_eq_some_iff.mp hc).1
        rw [List.getElem?_set_self hlt]
        exact congrArg some (reader_call m n o r)
      · rw [List.getElem?_set_ne (Ne.symm hne), lastContent_call (Ne.symm hne)]
        exact hinv.readers m t hm
    · have hlt := (List.getElem?_eq_some_iff.mp ht).1
      rw [List.length_set] at hm
      rw [lastContent_call (by omega)]
      exact hinv.unstarted m hm
  · intro tr s n hr hob hinv ha hans
    refine ⟨hinv.sound, fun m t hm => ?_, fun m hm => ?_⟩
    · rcases getElem?_append_cases hm with ⟨rfl, rfl⟩ | hm
      · have hnone : lastContent s.tasks.length ((s, .spawn n) :: tr) = none :=
          hinv.unstarted _ (Nat.le_refl _)
        rw [hnone, hob.length, List.getElem?_concat_length]
        cases n <;> rfl
      · have hold := hinv.readers m t hm
        rw [List.getElem?_append_left (List.getElem?_eq_some_iff.mp hold).1]
        exact hold
    · rw [List.length_append] at hm
      exact hinv.unstarted m (by omega)
  · intro tr s w' hr hob hinv hd hans
    refine ⟨fun hphash htext => ?_, hinv.readers, hinv.unstarted⟩
    rcases strings_of_drift hd _ with hsame | hnone
    · exact hinv.sound hphash (hsame ▸ htext)
    · rw [hnone] at htext
      simp at htext

/-- The call a task makes is one the cache permits. -/
def PermittedStep (D : Deployment) (A : Answers) (tr : SysTrace) (s : SysState) :
    Label Op Ans PyExc TaskName → Prop
  | .call i o r => ∀ p rest, s.tasks[i]? = some ⟨.worker p, rest⟩ →
      Reader.pre D A (.worker p (lastContent i tr)) o ∧
        Reader.rely D A (.worker p (lastContent i tr)) o r
  | _ => True

theorem permitted_run (hfun : D.Functional A) (hcache : CacheSound D A w₀)
    (h : D.sys.Run w₀ tr s) (hans : Always (fun _ _ l => AnsweredIn A l) tr) :
    Always (PermittedStep D A) tr := by
  refine h.always (fun {tr s l s'} hr hs hpast hans => ?_) hans
  have hpast' : ∀ e ∈ tr, AnsweredIn A e.2 := fun e he => (hpast.mem he).choose_spec
  obtain ⟨hob, hinv⟩ := cacheInv_run hfun hcache hr hpast'
  cases hs with
  | @call i n o k r w' ht hsem =>
    intro p rest hp
    cases ht.symm.trans hp
    obtain ⟨c, hc, hpre⟩ := hob.permitted ht
    obtain rfl : Reader.worker p (lastContent i tr) = c :=
      Option.some.inj ((hinv.readers i _ ht).symm.trans hc)
    exact ⟨hpre, rely_of_sound hinv.sound hsem hans⟩
  | _ => exact trivial

end Runs

/-- **A transparent call** of a pass of worker `p` that downloaded `content` last, after the steps
    `tr`. -/
structure TransparentCall (D : Deployment) (A : Answers) (tr : SysTrace) (p : Nat)
    (content : Option Bytes) (o : Op) (r : Except PyExc (Ans o)) : Prop where
  /-- A SUCCEEDED write stores what extraction gives, postprocessed by this worker. -/
  stores : ∀ j set, o = .updateJob j set → set.status = .succeeded → StoresResult D A p content set
  /-- A payload that is cached is what extraction gave, not postprocessed. -/
  caches : ∀ key seconds value, o = .setex key seconds value → StoresRaw D A p content key value
  /-- A lookup is for the image's own pHash under the worker's own version. -/
  asks : ∀ key, o = .get key → AsksOwn D p content key
  /-- A payload that is found is what extraction would give. -/
  finds : ∀ key text, (⟨o, r⟩ : Event Op Ans PyExc) = ⟨.get key, .ok (some text)⟩ →
    StoresRaw D A p content key text
  /-- A lookup is never answered from a write under another version. -/
  version : ∀ key, o = .get key → ∀ s' k seconds value r',
    (s', .call k (.setex key seconds value) r') ∈ tr →
    ∀ p' rest, s'.tasks[k]? = some ⟨.worker p', rest⟩ →
      (D.process p').promptSemanticVersion = (D.process p).promptSemanticVersion

def TransparentStep (D : Deployment) (A : Answers) (tr : SysTrace) (s : SysState) :
    Label Op Ans PyExc TaskName → Prop
  | .call i o r => ∀ p rest, s.tasks[i]? = some ⟨.worker p, rest⟩ →
      TransparentCall D A tr p (lastContent i tr) o r
  | _ => True

/-- Both ends of a key have its version. -/
theorem version_of_key {D : Deployment} {A : Answers} (hfun : D.Functional A) {p p' : Nat}
    {content content' : Option Bytes} {key value : Str} (hget : AsksOwn D p content key)
    (hset : StoresRaw D A p' content' key value) :
    (D.process p').promptSemanticVersion = (D.process p).promptSemanticVersion := by
  obtain ⟨pp, ⟨bytes, -, hpp⟩, rfl⟩ := hget
  obtain ⟨pp', raw, ⟨bytes', -, hpp'⟩, -, hkey, -⟩ := hset
  have hphash : D.lib.imagePhash pp.pil = .ok pp.phash := imagePhash_of_preprocess hpp
  have hphash' : D.lib.imagePhash pp'.pil = .ok pp'.phash := imagePhash_of_preprocess hpp'
  exact (phashCacheKey_injective (hfun.hex hphash) (hfun.hex hphash') hkey).2.symm

/-- A permitted call is transparent. -/
theorem transparent_of_permitted {D : Deployment} {A : Answers} (hfun : D.Functional A)
    {tr : SysTrace} (hpast : Always (PermittedStep D A) tr) {p : Nat} {content : Option Bytes}
    {o : Op} {r : Except PyExc (Ans o)}
    (h : Reader.pre D A (.worker p content) o ∧ Reader.rely D A (.worker p content) o r) :
    TransparentCall D A tr p content o r := by
  obtain ⟨hpre, hrely⟩ := h
  refine ⟨?_, ?_, ?_, ?_, ?_⟩
  · intro j set heq hset
    subst heq
    exact hpre hset
  · intro key seconds value heq
    subst heq
    exact hpre
  · intro key heq
    subst heq
    exact hpre
  · intro key text he
    cases he
    obtain ⟨pp, ⟨bytes, rfl, hpp⟩, rfl⟩ := hpre
    obtain ⟨raw, hraw, rfl⟩ := hrely (imagePhash_of_preprocess hpp) rfl rfl
    exact ⟨pp, raw, ⟨bytes, rfl, hpp⟩, hraw, rfl, rfl⟩
  · intro key heq s' k seconds value r' hm p' rest ht
    subst heq
    obtain ⟨tr', hset⟩ := hpast.mem hm
    exact version_of_key hfun hpre (hset p' rest ht).1

/-- **The pHash cache is transparent**: in every run, every success write stores what detection
    and extraction would give for the image, postprocessed, as without the cache; and what is
    dumped to JSON, loaded and validated is what it was. -/
theorem cache_transparent {D : Deployment} {A : Answers} (hfun : D.Functional A) {w₀ : World}
    (hcache : CacheSound D A w₀) {tr : SysTrace} {s : SysState} (h : D.sys.Run w₀ tr s)
    (hans : Always (fun _ _ l => AnsweredIn A l) tr) :
    Always (TransparentStep D A) tr ∧ ∀ raw : InvoiceResult,
      ∃ payload, loads (dumps (.obj raw.modelDump)) = some payload ∧
        InvoiceResult.modelValidate payload = .ok raw := by
  refine ⟨?_, fun raw => ⟨_, loads_modelDump raw, InvoiceResult.modelValidate_dump raw⟩⟩
  refine (permitted_run hfun hcache h hans).imp fun {tr s l} hpast hstep => ?_
  cases l with
  | call i o r => exact fun p rest ht => transparent_of_permitted hfun hpast (hstep p rest ht)
  | _ => exact trivial

/-! ## 6. A miss and a hit -/

/-- A service with one answer to every call, which no step of the schedule withholds. -/
def Move.ServedBy (services : (o : Op) → Except PyExc (Ans o)) : Move → Prop
  | .serve _ f => f = services
  | .fail _ _ => False
  | _ => True

theorem answered_of_move {D : Deployment} {services : (o : Op) → Except PyExc (Ans o)}
    {s s' : SysState} {m : Move} {l : Label Op Ans PyExc TaskName} (hm : m.ServedBy services)
    (h : D.move s m = some (l, s')) : AnsweredIn (fun o r => r = services o) l := by
  cases m with
  | run i =>
    simp only [Deployment.move] at h
    split at h
    · next n o k ht =>
      split at h
      · next a w' ha =>
        cases h
        intro ho
        rw [act_service ho] at ha
        simp at ha
      · simp at h
    · simp at h
  | fail i e => exact hm.elim
  | serve i f =>
    obtain rfl : f = services := hm
    simp only [Deployment.move] at h
    split at h
    · split at h
      · cases h
        exact fun _ => rfl
      · simp at h
    · simp at h
  | spawn n =>
    simp only [Deployment.move] at h
    split at h
    · cases h
      exact trivial
    · simp at h
  | tick d =>
    cases h
    exact trivial

theorem answered_of_replay {D : Deployment} {services : (o : Op) → Except PyExc (Ans o)} :
    ∀ {ms : List Move} {tr tr' : SysTrace} {s s' : SysState}, (∀ m ∈ ms, m.ServedBy services) →
      Always (fun _ _ l => AnsweredIn (fun o r => r = services o) l) tr →
      D.replayFrom ms tr s = some (tr', s') →
      Always (fun _ _ l => AnsweredIn (fun o r => r = services o) l) tr'
  | [], _, _, _, _, _, htr, h => by
    cases h
    exact htr
  | m :: ms, tr, tr', s, s', hms, htr, h => by
    simp only [Deployment.replayFrom] at h
    split at h
    · next l s₁ hm =>
      have hl := answered_of_move (hms m List.mem_cons_self) hm
      exact answered_of_replay (fun m' hm' => hms m' (List.mem_cons_of_mem _ hm')) (.cons hl htr) h
    · simp at h

theorem answered_replay_get {D : Deployment} {services : (o : Op) → Except PyExc (Ans o)}
    {w₀ : World} {ms : List Move} (hms : ∀ m ∈ ms, m.ServedBy services)
    (h : (D.replay w₀ ms).isSome = true) :
    Always (fun _ _ l => AnsweredIn (fun o r => r = services o) l) ((D.replay w₀ ms).get h).1 :=
  answered_of_replay hms .nil (Option.some_get h).symm

namespace Sample

/-- The image of every download that is `[0]`. -/
def pixel : Image := ⟨"RGB".toList, 1, 1, [0]⟩

/-- Libraries that have a pHash, and a prompt. -/
def seeingLib : Externals :=
  { lib with
    imagePhash := fun img =>
      if img = pixel then .ok "8000000000000000".toList else .error (.valueError [])
    letterboxed := fun _ _ _ _ _ =>
      .ok ⟨[1, 3, 640, 640], List.replicate 1228800 0, by rw [List.length_replicate]; rfl⟩
    readFile := fun _ => some "Read the invoice.".toList }

/-- One box over the whole image; one field read. -/
def services : (o : Op) → Except PyExc (Ans o)
  | .request _ => .ok { statusCode := 200, content := [0] }
  | .infer _ => .ok (.ok (some ⟨[1, 5, 1], [320, 320, 640, 640, 9 / 10], rfl⟩))
  | .acquire => .ok true
  | .generateContent _ => .ok (some "\x7b\"total_money\": \"12000\"\x7d".toList)
  | _ => .error (.timeoutError [])

/-- Two processes of one version; the second one empties the money field. -/
def caching : Deployment where
  cfg := { geminiApiKey := "key".toList }
  lib := seeingLib
  process p := ⟨"v3.7".toList, fun r => .ok (if p = 1 then { r with totalMoney := [] } else r)⟩

def job' : Uuid := (Uuid.parse (List.replicate 32 '1')).get (by decide)

/-- One job is extracted and cached by the first process; another one with the same image is found
    in the cache by the second. -/
def missThenHit : List Move :=
  [.spawn (.submit job url), .run 0, .run 0, .run 0, .spawn (.worker 0), .run 1, .run 1, .run 1,
    .serve 1 services, .run 1, .run 1, .serve 1 services, .serve 1 services, .serve 1 services,
    .run 1, .run 1,
    .spawn (.submit job' url), .run 2, .run 2, .run 2, .spawn (.worker 1), .run 3, .run 3, .run 3,
    .serve 3 services, .run 3, .run 3, .run 3]

theorem replays_missThenHit : (caching.replay (World.fresh 0) missThenHit).isSome = true := by
  decide +kernel

def cachedRun : SysTrace × SysState :=
  (caching.replay (World.fresh 0) missThenHit).get replays_missThenHit

theorem run_cachedRun : caching.sys.Run (World.fresh 0) cachedRun.1 cachedRun.2 :=
  replay_get_run replays_missThenHit

theorem functional_caching : caching.Functional fun o r => r = services o where
  hex {img phash} h := by
    have himg : (if img = pixel then .ok "8000000000000000".toList else .error (.valueError [])) =
      (.ok phash : Except PyExc Str) := h
    split at himg
    · cases himg
      have hall : "8000000000000000".toList.all (fun c => (hexValue c).isSome) = true := rfl
      exact List.all_eq_true.mp hall
    · simp at himg
  unique h h' := by
    obtain ⟨es, h⟩ := h
    obtain ⟨es', h'⟩ := h'
    have hsame := (exec_unique (fun hr hr' => ⟨hr.trans hr'.symm, rfl⟩) h h').1
    exact Except.ok.inj hsame
  samePhash {p img img' phash raw} h h' hraw := by
    have hpixel : ∀ {i : Image}, caching.lib.imagePhash i = .ok phash → i = pixel := by
      intro i hi
      by_contra hne
      have herr : caching.lib.imagePhash i = .error (.valueError []) := if_neg hne
      rw [herr] at hi
      simp at hi
    rw [hpixel h']
    rw [hpixel h] at hraw
    exact hraw

theorem answered_cachedRun :
    Always (fun _ _ l => AnsweredIn (fun o r => r = services o) l) cachedRun.1 := by
  refine answered_replay_get ?_ replays_missThenHit
  simp [missThenHit, Move.ServedBy]

/-- A success write that took effect. -/
def stored : Label Op Ans PyExc TaskName → Bool
  | .call _ (.updateJob _ set) (.ok _) => set.status = .succeeded
  | _ => false

end Sample

/-- Both success writes of that run, the one after the hit included. -/
theorem cache_transparent_hit : Sample.cachedRun.1.countP (fun e => Sample.stored e.2) = 2 ∧
    Always (TransparentStep Sample.caching fun o r => r = Sample.services o)
      Sample.cachedRun.1 := by
  have hcache : CacheSound Sample.caching (fun o r => r = Sample.services o) (World.fresh 0) :=
    cacheSound_empty _ _ rfl
  refine ⟨by decide +kernel, ?_⟩
  exact (cache_transparent Sample.functional_caching hcache Sample.run_cachedRun
    Sample.answered_cachedRun).1

end InvoiceOcr
