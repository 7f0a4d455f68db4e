/-
  File:      InvoiceOcr/Protocol.lean
  Subject:   WHAT A TASK MAY DO NEXT. The situations of the tasks of the system as one monitor, and
             the proof that every task obeys it.

  * `Phase` -- where a task stands: a worker pass from the pop to the closing write or the push
    back, a request, a sweep, a purge;
  * `Phase.pre`, `Phase.next` -- the calls a situation permits and where an outcome leads;
  * `obeys_…` -- one lemma per helper and stage of the worker, from the bottom up;
  * **`Deployment.protocol`** -- every task obeys from its start, and ends in a situation with
    nothing left to do.
-/
import InvoiceOcr.Deployment

namespace InvoiceOcr

open PyJson Async

/-! ## 1. What a status write is -/

/-- The PROCESSING mark and the pHash update. -/
structure JobSet.IsMark (s : JobSet) : Prop where
  status : s.status = .processing
  result : s.result = none
  errorCode : s.errorCode = none
  errorMessage : s.errorMessage = none

structure JobSet.IsSuccess (s : JobSet) : Prop where
  status : s.status = .succeeded
  result : s.result.isSome = true
  errorCode : s.errorCode = none
  errorMessage : s.errorMessage = none

structure JobSet.IsFailure (s : JobSet) : Prop where
  status : s.status.isFailed = true
  result : s.result = none
  errorCode : s.errorCode.isSome = true

theorem isMark_processingSet : processingSet.IsMark := ⟨rfl, rfl, rfl, rfl⟩

theorem isMark_phashSet (phash : Str) : (phashSet phash).IsMark := ⟨rfl, rfl, rfl, rfl⟩

theorem isSuccess_successSet (final : InvoiceResult) : (successSet final).IsSuccess :=
  ⟨rfl, rfl, rfl, rfl⟩

theorem isFailure_failSet (isPermanent : Bool) (code msg : Str) :
    (failSet isPermanent code msg).IsFailure :=
  ⟨by cases isPermanent <;> rfl, rfl, rfl⟩

/-! ## 2. Situations -/

/-- Why a run yields: uncounted, as its `k`-th counted failure, inside a bump that failed, or once
    more after that. -/
inductive Yield where
  | free
  | counted (k : Nat)
  | blip
  | again
  deriving DecidableEq

/-- The situation of a task. -/
inductive Phase where
  -- a pass of a worker slot: before the pop; popped; past the status check
  | idle
  | unread (jobId : Uuid) (imageUrl : Json)
  | live (jobId : Uuid) (imageUrl : Json)
  -- the first count is written, its expiry is not set
  | expiring (jobId : Uuid) (imageUrl : Json)
  -- about to touch; touched, about to push; the yield failed
  | yielding (jobId : Uuid) (imageUrl : Json) (y : Yield)
  | touched (jobId : Uuid) (imageUrl : Json) (y : Yield)
  | failing (jobId : Uuid) (y : Yield)
  -- counted beyond the cap
  | orphaning (jobId : Uuid) (count : Nat)
  -- nothing left to do: the closing write was attempted, the job pushed back, neither
  | closed (jobId : Uuid)
  | pushed (jobId : Uuid) (y : Yield)
  | ended
  -- a request, before and after its row is there
  | submitting (jobId : Uuid) (imageUrl : Str)
  | inserted (jobId : Uuid) (imageUrl : Str)
  -- the daemons
  | sweepReady
  | sweeping (rows : List JobRow)
  | purging

namespace Phase

/-- The situations in which a task may end. -/
def MayEnd : Phase → Prop
  | .closed _ => True
  | .pushed _ _ => True
  | .ended => True
  | .submitting _ _ => True
  | .sweeping rows => rows = []
  | _ => False

/-- The situations in which a failure write closes the job. -/
def Closable (jobId : Uuid) : Phase → Prop
  | .live j _ => j = jobId
  | .yielding j _ y => j = jobId ∧ (y = .free ∨ y = .blip)
  | .failing j _ => j = jobId
  | _ => False

/-- The calls of a run past its status check. -/
def Works (jobId : Uuid) : Op → Prop
  | .updateJob j s => j = jobId ∧ (s.IsMark ∨ s.IsSuccess ∨ s.IsFailure)
  | .touchJob j => j = jobId
  | .hincrby key field => key = requeueKey jobId ∧ field = requeueField
  | .get _ => True
  | .setex _ _ _ => True
  | o => o.IsStage

/-- A failure write on the job. -/
def FailsJob (jobId : Uuid) : Op → Prop
  | .updateJob j s => j = jobId ∧ s.IsFailure
  | _ => False

/-- The calls a situation permits. -/
def pre (cfg : Settings) : Phase → Op → Prop
  | .idle, o => o = .brpop
  | .unread j _, o => o = .selectJob j
  | .live j _, o => Works j o
  | .expiring j _, o => ∃ n, o = .expire (requeueKey j) n
  | .yielding j _ y, o => o = .touchJob j ∨ ((y = .free ∨ y = .blip) ∧ FailsJob j o)
  | .touched j v _, o => o = .lpush (message j v)
  | .failing j _, o => FailsJob j o
  | .orphaning j _, o => o = .updateJob j (orphanSet cfg)
  | .closed _, _ => False
  | .pushed _ _, _ => False
  | .ended, _ => False
  | .submitting j u, o => o = .llen ∨ o = .insertJob j .pending u
  | .inserted j u, o => o = .lpush (message j (.str u))
  | .sweepReady, o =>
      o = .selectStale (minutes cfg.staleProcessingMinutes) (minutes cfg.stalePendingMinutes)
  | .sweeping rows, o => ∃ r rs, rows = r :: rs ∧ o = .updateJob r.jobId (staleSet r)
  | .purging, o => o = .deleteOld (days cfg.jobRetentionDays)

/-- After a pop. -/
def popped (val : Option Str) : Phase :=
  match val.bind decodeMessage with
  | some (j, v) => .unread j v
  | none => .ended

/-- After the status check. -/
def checked (jobId : Uuid) (imageUrl : Json) (row : Option JobRow) : Phase :=
  match row with
  | some r => if r.status.isTerminal then .ended else .live jobId imageUrl
  | none => .ended

/-- After a count. -/
def counted (cfg : Settings) (jobId : Uuid) (imageUrl : Json) (k : Nat) : Phase :=
  if cfg.requeueMax < k then .orphaning jobId k else .yielding jobId imageUrl (.counted k)

/-- After a push back. -/
def returned (jobId : Uuid) (imageUrl : Json) (y : Yield) : Phase :=
  if y = .blip then .yielding jobId imageUrl .again else .pushed jobId y

/-- Where an outcome leads a run past its status check. -/
def worked (cfg : Settings) (jobId : Uuid) (imageUrl : Json) :
    (o : Op) → Except PyExc (Ans o) → Phase
  | .updateJob _ s, .ok _ =>
      if s.status = .processing then .live jobId imageUrl else .closed jobId
  | .updateJob _ s, .error _ =>
      if s.status = .processing then .live jobId imageUrl
      else if s.status = .succeeded then .yielding jobId imageUrl .free
      else .closed jobId
  | .touchJob _, .ok _ => .touched jobId imageUrl .free
  | .touchJob _, .error _ => .failing jobId .free
  | .hincrby _ _, .ok k =>
      if k = 1 then .expiring jobId imageUrl else counted cfg jobId imageUrl k
  | .hincrby _ _, .error _ => .yielding jobId imageUrl .blip
  | _, _ => .live jobId imageUrl

/-- Where an outcome leads. -/
def next (cfg : Settings) : Phase → (o : Op) → Except PyExc (Ans o) → Phase
  | .idle, .brpop, .ok val => popped val
  | .unread j v, .selectJob _, .ok row => checked j v row
  | .unread j v, _, .error _ => .yielding j v .free
  | .live j v, o, r => worked cfg j v o r
  | .expiring j v, _, .ok _ => counted cfg j v 1
  | .expiring j v, _, .error _ => .yielding j v .blip
  | .yielding j v y, .touchJob _, .ok _ => .touched j v y
  | .yielding j _ y, .touchJob _, .error _ => .failing j y
  | .yielding j _ _, _, _ => .closed j
  | .touched j v y, _, .ok _ => returned j v y
  | .touched j _ y, _, .error _ => .failing j y
  | .failing j _, _, _ => .closed j
  | .orphaning j _, _, _ => .closed j
  | .submitting j u, .llen, _ => .submitting j u
  | .submitting j u, _, .ok _ => .inserted j u
  | .sweepReady, .selectStale _ _, .ok rows => .sweeping rows
  | .sweeping rows, _, _ => .sweeping rows.tail
  | _, _, _ => .ended

end Phase

/-- The monitor of the system. -/
def monitor (cfg : Settings) : Monitor Op Ans PyExc Phase where
  pre := Phase.pre cfg
  rely _ _ _ := True
  next := Phase.next cfg

/-! ## 3. The helpers obey -/

section Helpers

/-- One awaited call whose exceptions are mapped. -/
theorem wp_mapped {σ : Type} {M : Monitor Op Ans PyExc σ} {o : Op} {f : PyExc → PyExc}
    {Q : Except PyExc (Ans o) → σ → Prop} {s : σ} (hpre : M.pre s o)
    (hok : ∀ a, M.rely s o (.ok a) → Q (.ok a) (M.next s o (.ok a)))
    (herr : ∀ e, M.rely s o (.error e) → Q (.error (f e)) (M.next s o (.error e))) :
    wp M Q ((await o).tryCatch fun e => .raise (f e)) s := by
  refine (wp_tryCatch _ _ _).mpr ((wp_await o s).mpr ⟨hpre, fun r hr => ?_⟩)
  cases r with
  | ok a => exact hok a hr
  | error e => exact herr e hr

variable {cfg : Settings} {j : Uuid} {v : Json}

/-- What a run is left with after a stage: done, or an exception that the handler can close. -/
def Settled (j : Uuid) : Except PyExc Unit → Phase → Prop
  | .ok _, p => p.MayEnd
  | .error _, p => p.Closable j

/-- `_fail` closes. -/
theorem obeys_fail {s : Phase} (hs : s.Closable j) (isPermanent : Bool) (code msg : Str) :
    wp (monitor cfg) (fun r p => r = .ok () ∧ p = .closed j) (fail j isPermanent code msg) s := by
  have hfail := isFailure_failSet isPermanent code msg
  have hpre : Phase.pre cfg s (.updateJob j (failSet isPermanent code msg)) := by
    cases s with
    | live j' v => exact ⟨hs.symm, Or.inr (Or.inr hfail)⟩
    | yielding j' v y => exact Or.inr ⟨hs.2, hs.1.symm, hfail⟩
    | failing j' y => exact ⟨hs.symm, hfail⟩
    | _ => exact hs.elim
  have hnext : ∀ r, Phase.next cfg s (.updateJob j (failSet isPermanent code msg)) r = .closed j := by
    intro r
    cases s with
    | live j' v => cases hs; cases r <;> cases isPermanent <;> rfl
    | yielding j' v y => cases hs.1; cases r <;> rfl
    | failing j' y => cases hs; cases r <;> rfl
    | _ => exact hs.elim
  refine (wp_tryCatch _ _ _).mpr (wp_mapped hpre (fun a _ => ⟨rfl, hnext _⟩) fun e _ => ?_)
  exact ⟨rfl, hnext _⟩

theorem settled_fail {s : Phase} (hs : s.Closable j) (isPermanent : Bool) (code msg : Str) :
    wp (monitor cfg) (Settled j) (fail j isPermanent code msg) s := by
  refine wp_mono (fun r p h => ?_) (obeys_fail hs isPermanent code msg)
  obtain ⟨rfl, rfl⟩ := h
  exact trivial

/-- What a yield leads to. -/
def Yielded (j : Uuid) (v : Json) (y : Yield) : Except PyExc Unit → Phase → Prop
  | .ok _, p => p = Phase.returned j v y
  | .error _, p => p = .failing j y

/-- `_yield_to_queue` touches, then pushes. -/
theorem obeys_yield {s : Phase} {y : Yield}
    (hs : s = .yielding j v y ∨ (s = .live j v ∧ y = .free)) :
    wp (monitor cfg) (Yielded j v y) (yieldToQueue j v) s := by
  have hpre : Phase.pre cfg s (.touchJob j) := by
    rcases hs with rfl | ⟨rfl, rfl⟩
    · exact Or.inl rfl
    · exact rfl
  have hok : ∀ a, Phase.next cfg s (.touchJob j) (.ok a) = .touched j v y := by
    rcases hs with rfl | ⟨rfl, rfl⟩ <;> exact fun _ => rfl
  have herr : ∀ e, Phase.next cfg s (.touchJob j) (.error e) = .failing j y := by
    rcases hs with rfl | ⟨rfl, rfl⟩ <;> exact fun _ => rfl
  refine (wp_bind _ _ _).mpr (wp_mapped hpre (fun a _ => ?_) fun e _ => herr e)
  show wp (monitor cfg) (Yielded j v y) (pushToQueue j v) (Phase.next cfg s (.touchJob j) (.ok a))
  rw [hok]
  exact wp_mapped rfl (fun _ _ => rfl) fun _ _ => rfl

/-- A yield settles a run, except inside a bump. -/
theorem settled_yield {s : Phase} {y : Yield} (hy : y ≠ .blip)
    (hs : s = .yielding j v y ∨ (s = .live j v ∧ y = .free)) :
    wp (monitor cfg) (Settled j) (yieldToQueue j v) s := by
  refine wp_mono (fun r p h => ?_) (obeys_yield hs)
  cases r with
  | ok a =>
    rw [show p = _ from h, Phase.returned, if_neg hy]
    exact trivial
  | error e =>
    rw [show p = _ from h]
    exact rfl

/-- What `_bump_or_orphan` leads to. -/
def Bumped (j : Uuid) (v : Json) : Except PyExc (Option Nat) → Phase → Prop
  | .ok none, p => p = .closed j
  | .ok (some _), p => ∃ y, y ≠ .blip ∧ p = .yielding j v y
  | .error _, p => p.Closable j

/-- Where a bump leaves a run: counted, or failed. -/
def BumpPost (cfg : Settings) (j : Uuid) (v : Json) : Except PyExc Nat → Phase → Prop
  | .ok k, p => p = Phase.counted cfg j v k
  | .error _, p => p = .yielding j v .blip

theorem obeys_bump : wp (monitor cfg) (BumpPost cfg j v) (bumpRequeueCounter cfg j) (.live j v) := by
  refine (wp_tryCatch _ _ _).mpr ((wp_bind _ _ _).mpr ((wp_await _ _).mpr
    ⟨⟨rfl, rfl⟩, fun r _ => ?_⟩))
  cases r with
  | error e => exact rfl
  | ok k =>
    show wp (monitor cfg) _ _
      (if k = 1 then .expiring j v else Phase.counted cfg j v k : Phase)
    by_cases hk : k = 1
    · rw [if_pos hk]
      simp only [if_pos hk]
      refine (wp_bind _ _ _).mpr ((wp_await _ _).mpr ⟨⟨_, rfl⟩, fun r _ => ?_⟩)
      cases r with
      | ok a => exact hk ▸ rfl
      | error e => exact rfl
    · rw [if_neg hk]
      simp only [if_neg hk]
      exact rfl

theorem obeys_orphan {k : Nat} :
    wp (monitor cfg) (fun r p => r = .ok () ∧ p = .closed j) (orphan cfg j) (.orphaning j k) :=
  (wp_tryCatch _ _ _).mpr (wp_mapped rfl (fun _ _ => ⟨rfl, rfl⟩) fun _ _ => ⟨rfl, rfl⟩)

theorem obeys_bumpOrOrphan :
    wp (monitor cfg) (Bumped j v) (bumpOrOrphan cfg j v) (.live j v) := by
  refine wp_tryElse_of obeys_bump (fun k p hp => ?_) fun e p hp => ?_
  · rw [show p = _ from hp, Phase.counted]
    by_cases hk : cfg.requeueMax < k
    · rw [if_pos hk, if_pos hk]
      refine wp_bind_of obeys_orphan (fun a p h => h.2) fun e p h => ?_
      cases h.1
    · rw [if_neg hk, if_neg hk]
      exact ⟨.counted k, nofun, rfl⟩
  · rw [show p = _ from hp]
    by_cases he : e.isStorageTransientError
    · rw [if_pos he]
      refine wp_bind_of (obeys_yield (Or.inl rfl)) (fun a p h => ?_) fun e p h => ?_
      · exact ⟨.again, nofun, h⟩
      · rw [show p = _ from h]
        exact rfl
    · rw [if_neg he]
      exact ⟨rfl, Or.inr rfl⟩

/-- The transient branch of a stage settles the run. -/
theorem settled_requeue : wp (monitor cfg) (Settled j) (requeueCounted cfg j v) (.live j v) := by
  refine wp_bind_of obeys_bumpOrOrphan (fun c p hp => ?_) fun e p hp => hp
  cases c with
  | none =>
    rw [show p = _ from hp]
    exact trivial
  | some c =>
    obtain ⟨y, hy, rfl⟩ := hp
    exact settled_yield hy (Or.inl rfl)

end Helpers

/-! ## 4. The lifecycle obeys -/

section Lifecycle

variable {wk : Worker} {j : Uuid} {v : Json}

/-- A stage of service calls leaves a live run live. -/
theorem live_of_stage {cfg : Settings} {α : Type} {p : Py α} (hp : p.OnlyCalls Op.IsStage) :
    wp (monitor cfg) (fun _ s => s = .live j v) p (.live j v) := by
  refine wp_quiet (P := Op.IsStage) (fun o ho => ?_) (fun o r ho => ?_) hp fun _ => rfl
  · cases o <;> first | exact ho | cases ho
  · cases o <;> first | rfl | cases ho

/-- A step that leaves the run live, with what follows each of its ends. -/
theorem settled_tryElse {cfg : Settings} {α : Type} {p : Py α} {h : PyExc → Py Unit}
    {k : α → Py Unit} (hp : wp (monitor cfg) (fun _ s => s = .live j v) p (.live j v))
    (hok : ∀ a, wp (monitor cfg) (Settled j) (k a) (.live j v))
    (herr : ∀ e, wp (monitor cfg) (Settled j) (h e) (.live j v)) :
    wp (monitor cfg) (Settled j) (p.tryElse h k) (.live j v) := by
  refine wp_tryElse_of hp (fun a s hs => ?_) fun e s hs => ?_
  · subst hs
    exact hok a
  · subst hs
    exact herr e

/-- An uncaught exception of a live run. -/
theorem settled_raise {cfg : Settings} (e : PyExc) :
    wp (monitor cfg) (Settled j) (.raise e) (.live j v) := rfl

theorem settled_bind {cfg : Settings} {α : Type} {p : Py α} {f : α → Py Unit}
    (hp : wp (monitor cfg) (fun _ s => s = .live j v) p (.live j v))
    (hf : ∀ a, wp (monitor cfg) (Settled j) (f a) (.live j v)) :
    wp (monitor cfg) (Settled j) (p >>= f) (.live j v) :=
  settled_tryElse hp hf settled_raise

/-- `except …: pass` around a step that leaves the run live. -/
theorem live_suppress {cfg : Settings} {α : Type} {p : Py α} {c : PyExc → Bool} {a : α}
    (hp : wp (monitor cfg) (fun _ s => s = .live j v) p (.live j v)) :
    wp (monitor cfg) (fun _ s => s = .live j v)
      (p.tryCatch fun e => if c e then .ret a else .raise e) (.live j v) := by
  refine wp_tryElse_of hp (fun _ s hs => hs) fun e s hs => ?_
  split <;> exact hs

theorem settled_yield_live {cfg : Settings} :
    wp (monitor cfg) (Settled j) (yieldToQueue j v) (.live j v) :=
  settled_yield (y := .free) (fun h => by simp at h) (Or.inr ⟨rfl, rfl⟩)

theorem settled_fail_live {cfg : Settings} (e : PyExc) :
    wp (monitor cfg) (Settled j) (failPermanent j e) (.live j v) :=
  settled_fail (s := .live j v) rfl _ _ _

/-- What a closing write that Postgres may refuse leads to. -/
def Tried (j : Uuid) (v : Json) : Except PyExc Unit → Phase → Prop
  | .ok _, p => p = .closed j
  | .error _, p => p = .yielding j v .free

theorem settled_persist (final : InvoiceResult) :
    wp (monitor wk.cfg) (Settled j) (persist j v final) (.live j v) := by
  have hset := isSuccess_successSet final
  have hwrite : wp (monitor wk.cfg) (Tried j v) (updateJobStatus j (successSet final))
      (.live j v) :=
    wp_mapped (M := monitor wk.cfg) (o := .updateJob j (successSet final))
      ⟨rfl, Or.inr (Or.inl hset)⟩ (fun _ _ => rfl) fun _ _ => rfl
  refine wp_tryElse_of hwrite (fun a p hp => ?_) fun e p hp => ?_
  · rw [show p = _ from hp]
    exact trivial
  · rw [show p = _ from hp]
    split
    · exact settled_yield (y := .free) (fun h => by simp at h) (Or.inl rfl)
    · exact ⟨rfl, Or.inl rfl⟩

theorem settled_finish (rawInvoice : InvoiceResult) :
    wp (monitor wk.cfg) (Settled j) (finish wk j v rawInvoice) (.live j v) :=
  settled_bind (live_of_stage (onlyCalls_ofExcept _)) fun final => settled_persist final

theorem settled_extract (phash : Str) (crop : Image) :
    wp (monitor wk.cfg) (Settled j) (extractStage wk j v phash crop) (.live j v) := by
  refine settled_tryElse (live_of_stage (stage_extractInvoice _ _ _)) (fun rawInvoice => ?_)
    fun e => ?_
  · refine settled_bind (live_suppress ?_) fun _ => settled_finish rawInvoice
    exact wp_mapped (M := monitor wk.cfg) (o := .setex _ _ _) trivial (fun _ _ => rfl) fun _ _ => rfl
  · split
    · exact settled_yield_live
    · split
      · exact settled_requeue
      · split
        · exact settled_fail_live e
        · exact settled_raise e

theorem settled_acquire (phash : Str) (crop : Image) :
    wp (monitor wk.cfg) (Settled j) (acquireStage wk j v phash crop) (.live j v) := by
  refine settled_bind (live_of_stage (onlyCalls_await rfl)) fun granted => ?_
  cases granted with
  | true => exact settled_extract phash crop
  | false => exact settled_yield_live

theorem settled_detect (pp : PreprocessResult) :
    wp (monitor wk.cfg) (Settled j) (detectStage wk j v pp) (.live j v) := by
  refine settled_tryElse (live_of_stage (stage_detectInvoice _ _ _))
    (fun crop => settled_acquire _ crop) fun e => ?_
  split
  · exact settled_fail_live e
  · split
    · exact settled_requeue
    · exact settled_raise e

theorem settled_cache (pp : PreprocessResult) :
    wp (monitor wk.cfg) (Settled j) (cacheStage wk j v pp) (.live j v) := by
  refine settled_bind (live_suppress ?_) fun cachedRaw => ?_
  · refine wp_bind_of (R := fun _ p => p = .live j v)
      (wp_mapped (M := monitor wk.cfg) (o := .get _) trivial (fun _ _ => rfl) fun _ _ => rfl)
      (fun val p hp => ?_) fun e p hp => hp
    cases val <;> exact hp
  · cases cachedInvoice cachedRaw with
    | some rawInvoice => exact settled_finish rawInvoice
    | none => exact settled_detect pp

theorem settled_phash (record : JobRow) (pp : PreprocessResult) :
    wp (monitor wk.cfg) (Settled j) (phashStage wk j v record pp) (.live j v) := by
  unfold phashStage
  split
  · refine settled_bind (live_suppress ?_) fun _ => settled_cache pp
    exact wp_mapped (M := monitor wk.cfg) (o := .updateJob j (phashSet pp.phash))
      ⟨rfl, Or.inl (isMark_phashSet _)⟩ (fun _ _ => rfl) fun _ _ => rfl
  · exact settled_cache pp

theorem settled_preprocess (record : JobRow) (raw : Bytes) :
    wp (monitor wk.cfg) (Settled j) (preprocessStage wk j v record raw) (.live j v) := by
  refine settled_tryElse (live_of_stage (onlyCalls_ofExcept _))
    (fun pp => settled_phash record pp) fun e => ?_
  split
  · exact settled_fail_live e
  · exact settled_raise e

theorem settled_download (record : JobRow) :
    wp (monitor wk.cfg) (Settled j) (downloadStage wk j v record) (.live j v) := by
  refine settled_tryElse (live_of_stage (stage_downloadImage _ _ _))
    (fun raw => settled_preprocess record raw) fun e => ?_
  split
  · exact settled_fail_live e
  · split
    · exact settled_requeue
    · exact settled_raise e

theorem settled_mark (record : JobRow) :
    wp (monitor wk.cfg) (Settled j) (markStage wk j v record) (.live j v) := by
  refine settled_tryElse
    (wp_mapped (M := monitor wk.cfg) (o := .updateJob j processingSet)
      ⟨rfl, Or.inl isMark_processingSet⟩ (fun _ _ => rfl) fun _ _ => rfl)
    (fun _ => settled_download record) fun e => ?_
  split
  · exact settled_yield_live
  · exact settled_raise e

/-- What the status check leads to. -/
def Read (j : Uuid) (v : Json) : Except PyExc (Option JobRow) → Phase → Prop
  | .ok row, p => p = Phase.checked j v row
  | .error _, p => p = .yielding j v .free

theorem settled_body :
    wp (monitor wk.cfg) (Settled j) (lifecycleBody wk j v) (.unread j v) := by
  have hread : wp (monitor wk.cfg) (Read j v) (getJobRecord j) (.unread j v) :=
    wp_mapped (M := monitor wk.cfg) (o := .selectJob j) rfl (fun _ _ => rfl) fun _ _ => rfl
  refine wp_tryElse_of hread (fun row p hp => ?_) fun e p hp => ?_
  · rw [show p = _ from hp]
    cases row with
    | none => exact trivial
    | some record =>
      simp only [Phase.checked]
      split
      · exact trivial
      · exact settled_mark record
  · rw [show p = _ from hp]
    split
    · exact settled_yield (y := .free) (fun h => by simp at h) (Or.inl rfl)
    · exact ⟨rfl, Or.inl rfl⟩

/-- **The lifecycle obeys**, and always returns. -/
theorem obeys_lifecycle :
    wp (monitor wk.cfg) (fun r p => r = .ok () ∧ p.MayEnd) (executeTaskLifecycle wk j v)
      (.unread j v) := by
  refine wp_tryElse_of settled_body (fun _ p hp => ⟨rfl, hp⟩) fun e p hp => ?_
  have hend : ∀ {q : Phase}, q = .closed j → q.MayEnd := fun h => h ▸ trivial
  unfold lifecycleHandler
  split
  · exact wp_mono (fun r q h => ⟨h.1, hend h.2⟩) (obeys_fail hp _ _ _)
  · refine wp_tryElse_of (obeys_fail hp _ _ _) (fun _ q h => ⟨rfl, hend h.2⟩) fun e q h => ?_
    cases h.1

end Lifecycle

/-! ## 5. Every task obeys -/

/-- Where a loaded message leads a pass. -/
def opened (msg : Json) : Phase :=
  match readMessage msg with
  | .ok (j, v) => .unread j v
  | .error _ => .ended

theorem popped_some {val : Str} (h : tooDeep jsonDepth val = none) :
    Phase.popped (some val) = (match loadsOrNone val with
      | some msg => opened msg
      | none => .ended) := by
  simp only [Phase.popped, Option.bind_some, decodeMessage, h, opened]
  cases loadsOrNone val with
  | none => rfl
  | some msg =>
    simp only
    cases readMessage msg <;> rfl

/-- What a pop leads to. -/
def Popped : Except PyExc (Option Json) → Phase → Prop
  | .ok (some msg), p => p = opened msg
  | _, p => p = .ended

theorem obeys_pop (cfg : Settings) : wp (monitor cfg) Popped (popFromQueue jsonDepth) .idle := by
  refine (wp_tryElse _ _ _ _).mpr ((wp_await _ _).mpr ⟨rfl, fun r _ => ?_⟩)
  cases r with
  | error e =>
    simp only [branch_error]
    split
    · exact rfl
    · split <;> exact rfl
  | ok val =>
    cases val with
    | none => exact rfl
    | some val =>
      show wp _ _ (loadsWithin jsonDepth val) (Phase.popped (some val))
      cases hdeep : tooDeep jsonDepth val with
      | some container =>
        rw [loadsWithin_tooDeep hdeep]
        show Phase.popped (some val) = .ended
        simp only [Phase.popped, Option.bind_some, decodeMessage_tooDeep hdeep]
      | none =>
        rw [loadsWithin_flat hdeep]
        show Popped (.ok (loadsOrNone val)) (Phase.popped (some val))
        rw [popped_some hdeep]
        cases loadsOrNone val <;> exact rfl

/-- A pass of a worker slot obeys. -/
theorem obeys_iteration (wk : Worker) :
    wp (monitor wk.cfg) (fun _ p => p.MayEnd) (workerIteration jsonDepth (executeTaskLifecycle wk))
      .idle := by
  refine wp_bind_of (obeys_pop wk.cfg) (fun msg p hp => ?_) fun e p hp => ?_
  · cases msg with
    | none =>
      rw [show p = _ from hp]
      exact trivial
    | some msg =>
      refine wp_tryElse_of (R := fun _ q => q.MayEnd) ?_ (fun _ q h => h) fun _ q h => h
      rw [show p = opened msg from hp]
      unfold opened
      cases readMessage msg with
      | error e => exact trivial
      | ok m => exact wp_mono (fun _ _ h => h.2) obeys_lifecycle
  · rw [show p = _ from hp]
    exact trivial

/-- What the row insert of a request leads to. -/
def Inserted (j : Uuid) (u : Str) : Except PyExc Unit → Phase → Prop
  | .ok _, p => p = .inserted j u
  | .error _, p => p = .ended

theorem obeys_enqueue {cfg : Settings} (j : Uuid) (u : Str) :
    wp (monitor cfg) (fun _ p => p = .ended) (enqueue j u) (.inserted j u) := by
  refine wp_tryElse_of (R := fun _ p => p = Phase.ended)
    (wp_mapped (M := monitor cfg) (o := .lpush _) rfl (fun _ _ => rfl) fun _ _ => rfl)
    (fun _ p hp => hp) fun e p hp => ?_
  split <;> exact hp

theorem obeys_persistAndEnqueue {cfg : Settings} (j : Uuid) (u : Str) :
    wp (monitor cfg) (fun _ p => p = .ended) (persistAndEnqueue j u) (.submitting j u) := by
  have hinsert : wp (monitor cfg) (Inserted j u) (createJobRecord j u) (.submitting j u) :=
    wp_mapped (M := monitor cfg) (o := .insertJob j .pending u) (Or.inr rfl)
      (fun _ _ => rfl) fun _ _ => rfl
  refine wp_tryElse_of hinsert (fun _ p hp => ?_) fun e p hp => ?_
  · rw [show p = _ from hp]
    exact obeys_enqueue j u
  · split <;> exact hp

/-- A request obeys. -/
theorem obeys_submit (cfg : Settings) (lib : Externals) (j : Uuid) (u : Str) :
    wp (monitor cfg) (fun _ p => p.MayEnd) (submitReceipt cfg lib j u) (.submitting j u) := by
  refine wp_tryElse_of (R := fun _ p => p.MayEnd) ?_ (fun _ p hp => hp) fun e p hp => ?_
  · refine wp_bind_of (R := fun _ p => p = Phase.submitting j u) ?_ (fun _ p hp => ?_) fun e p hp => ?_
    · refine wp_tryElse_of (R := fun _ p => p = Phase.submitting j u)
        (wp_mapped (M := monitor cfg) (o := .llen) (Or.inl rfl) (fun _ _ => rfl) fun _ _ => rfl)
        (fun depth p hp => ?_) fun _ p hp => hp
      split <;> exact hp
    · subst hp
      unfold validateAndPersist
      split
      · refine wp_mono (fun _ p hp => ?_) (obeys_persistAndEnqueue j u)
        subst hp
        exact trivial
      · split <;> exact trivial
    · subst hp
      exact trivial
  · split <;> exact hp

theorem obeys_sweepRows (cfg : Settings) : ∀ (rows : List JobRow) (n : Nat),
    wp (monitor cfg) (fun _ p => p.MayEnd) (sweepRows rows n) (.sweeping rows)
  | [], _ => rfl
  | r :: rs, n => by
    refine wp_tryElse_of (R := fun _ p => p = .sweeping rs) ?_
      (fun _ p hp => hp ▸ obeys_sweepRows cfg rs (n + 1)) fun _ p hp => hp ▸ obeys_sweepRows cfg rs n
    exact (wp_tryCatch _ _ _).mpr (wp_mapped (M := monitor cfg) (o := .updateJob r.jobId (staleSet r))
      ⟨r, rs, rfl, rfl⟩ (fun _ _ => rfl) fun _ _ => rfl)

/-- A pass of the sweeper obeys. -/
theorem obeys_sweep (cfg : Settings) :
    wp (monitor cfg) (fun _ p => p.MayEnd) (sweeperIteration cfg) .sweepReady := by
  refine wp_tryElse_of (R := fun _ p => p.MayEnd) ?_ (fun _ p hp => hp) fun _ p hp => hp
  refine wp_bind_of
    (R := fun r p => match r with | .ok rows => p = .sweeping rows | .error _ => p = .ended)
    (wp_mapped (M := monitor cfg) (o := .selectStale _ _) rfl (fun _ _ => rfl) fun _ _ => rfl)
    (fun rows p hp => ?_) fun e p hp => ?_
  · rw [show p = _ from hp]
    exact obeys_sweepRows cfg rows 0
  · rw [show p = _ from hp]
    exact trivial

theorem obeys_purge (cfg : Settings) :
    wp (monitor cfg) (fun _ p => p.MayEnd) (purgeIteration cfg) .purging := by
  refine wp_tryElse_of (R := fun _ p => p = Phase.ended)
    (wp_mapped (M := monitor cfg) (o := .deleteOld _) rfl (fun _ _ => rfl) fun _ _ => rfl)
    (fun _ p hp => ?_) fun _ p hp => ?_
  · exact hp ▸ trivial
  · exact hp ▸ trivial

/-- Where each kind of task starts. -/
def Phase.start : TaskName → Phase
  | .worker _ => .idle
  | .submit j u => .submitting j u
  | .sweep => .sweepReady
  | .purge => .purging

/-- **The protocol of the system.** -/
def Deployment.protocol (D : Deployment) : D.sys.Protocol Phase where
  toMonitor := monitor D.cfg
  start := Phase.start
  final _ p := p.MayEnd
  boots
    | .worker p => obeys_iteration (D.worker p)
    | .submit j u =>
      wp_bind_of (obeys_submit D.cfg D.lib j u) (fun _ _ h => h) fun _ _ h => h
    | .sweep => obeys_sweep D.cfg
    | .purge => obeys_purge D.cfg

/-! ## 6. The calls of a situation -/

section Calls

variable {cfg : Settings} {p : Phase}

attribute [local simp] Phase.pre Phase.Works Phase.FailsJob Op.IsStage Op.isStage

theorem Phase.pre_brpop (h : Phase.pre cfg p .brpop) : p = .idle := by
  cases p <;> simp_all

theorem Phase.pre_selectJob {j : Uuid} (h : Phase.pre cfg p (.selectJob j)) :
    ∃ v, p = .unread j v := by
  cases p <;> simp_all

theorem Phase.pre_selectStale {q q' : Nat} (h : Phase.pre cfg p (.selectStale q q')) :
    p = .sweepReady ∧ q = minutes cfg.staleProcessingMinutes ∧
      q' = minutes cfg.stalePendingMinutes := by
  cases p <;> simp_all

/-- A push hands back a touched job, or is a request's. -/
theorem Phase.pre_lpush {m : Str} (h : Phase.pre cfg p (.lpush m)) :
    (∃ j v y, p = .touched j v y ∧ m = message j v) ∨
      ∃ j u, p = .inserted j u ∧ m = message j (.str u) := by
  cases p <;> simp_all

theorem Phase.pre_hincrby {key field : Str} (h : Phase.pre cfg p (.hincrby key field)) :
    ∃ j v, p = .live j v ∧ key = requeueKey j ∧ field = requeueField := by
  cases p <;> simp_all

/-- A row is inserted as PENDING, by a request. -/
theorem Phase.pre_insertJob {j : Uuid} {status : JobStatus} {u : Str}
    (h : Phase.pre cfg p (.insertJob j status u)) : status = .pending ∧ p = .submitting j u := by
  cases p <;> simp_all

/-- **The writers of a status**: a run past its status check, and a sweep. -/
theorem Phase.pre_updateJob {j : Uuid} {set : JobSet} (h : Phase.pre cfg p (.updateJob j set)) :
    (∃ v, p = .live j v ∧ (set.IsMark ∨ set.IsSuccess ∨ set.IsFailure)) ∨
    (∃ v y, p = .yielding j v y ∧ (y = .free ∨ y = .blip) ∧ set.IsFailure) ∨
    (∃ y, p = .failing j y ∧ set.IsFailure) ∨
    (∃ k, p = .orphaning j k ∧ set = orphanSet cfg) ∨
    ∃ r rs, p = .sweeping (r :: rs) ∧ j = r.jobId ∧ set = staleSet r := by
  cases p <;> simp_all

/-- A status write is of one of three kinds. -/
theorem Phase.updateJob_kind {j : Uuid} {set : JobSet} (h : Phase.pre cfg p (.updateJob j set)) :
    set.IsMark ∨ set.IsSuccess ∨ set.IsFailure := by
  rcases Phase.pre_updateJob h with ⟨v, _, hk⟩ | ⟨v, y, _, _, hk⟩ | ⟨y, _, hk⟩ | ⟨k, _, rfl⟩ |
    ⟨r, rs, _, _, rfl⟩
  · exact hk
  · exact Or.inr (Or.inr hk)
  · exact Or.inr (Or.inr hk)
  · exact Or.inr (Or.inr (isFailure_failSet _ _ _))
  · exact Or.inr (Or.inr (isFailure_failSet _ _ _))

/-- A situation of a run of the job past its status check. -/
def Phase.OfRun (j : Uuid) (v : Json) : Phase → Prop
  | .live j' v' => j' = j ∧ v' = v
  | .expiring j' v' => j' = j ∧ v' = v
  | .yielding j' v' _ => j' = j ∧ v' = v
  | .touched j' v' _ => j' = j ∧ v' = v
  | .failing j' _ => j' = j
  | .orphaning j' _ => j' = j
  | .closed j' => j' = j
  | .pushed j' _ => j' = j
  | _ => False

/-- A call that leaves a run where it is: a mark, a cache access, a stage. -/
def Op.IsPlain (jobId : Uuid) : Op → Prop
  | .updateJob j s => j = jobId ∧ s.IsMark
  | .get _ => True
  | .setex _ _ _ => True
  | o => o.IsStage

/-- The situations of a run in which a closing write may be made. -/
def Phase.MayClose (jobId : Uuid) : Phase → Prop
  | .live j _ => j = jobId
  | .yielding j _ y => j = jobId ∧ (y = .free ∨ y = .blip)
  | .failing j _ => j = jobId
  | .orphaning j _ => j = jobId
  | _ => False

/-- **All that a call can do to a run past its status check.** -/
inductive Work (cfg : Settings) (j : Uuid) (v : Json) :
    Phase → (o : Op) → Except PyExc (Ans o) → Phase → Prop where
  | plain {o : Op} {r : Except PyExc (Ans o)} (h : o.IsPlain j) :
      Work cfg j v (.live j v) o r (.live j v)
  | unsaved {set : JobSet} {x : PyExc} (h : set.IsSuccess) :
      Work cfg j v (.live j v) (.updateJob j set) (.error x) (.yielding j v .free)
  | closed {p : Phase} {set : JobSet} {r : Except PyExc Unit} (hp : p.MayClose j)
      (h : (set.IsSuccess ∧ ∃ a, r = .ok a) ∨ set.IsFailure) :
      Work cfg j v p (.updateJob j set) r (.closed j)
  | touched {p : Phase} {y : Yield} (hp : p = .yielding j v y ∨ p = .live j v ∧ y = .free) :
      Work cfg j v p (.touchJob j) (.ok ()) (.touched j v y)
  | untouched {p : Phase} {y : Yield} {x : PyExc}
      (hp : p = .yielding j v y ∨ p = .live j v ∧ y = .free) :
      Work cfg j v p (.touchJob j) (.error x) (.failing j y)
  | pushed {y : Yield} (hy : y ≠ .blip) :
      Work cfg j v (.touched j v y) (.lpush (message j v)) (.ok ()) (.pushed j y)
  | pushedInBump :
      Work cfg j v (.touched j v .blip) (.lpush (message j v)) (.ok ()) (.yielding j v .again)
  | unpushed {y : Yield} {x : PyExc} :
      Work cfg j v (.touched j v y) (.lpush (message j v)) (.error x) (.failing j y)
  | firstCount :
      Work cfg j v (.live j v) (.hincrby (requeueKey j) requeueField) (.ok 1) (.expiring j v)
  | count {k : Nat} (hk : k ≠ 1) (hle : k ≤ cfg.requeueMax) :
      Work cfg j v (.live j v) (.hincrby (requeueKey j) requeueField) (.ok k)
        (.yielding j v (.counted k))
  | overCount {k : Nat} (hk : k ≠ 1) (hlt : cfg.requeueMax < k) :
      Work cfg j v (.live j v) (.hincrby (requeueKey j) requeueField) (.ok k) (.orphaning j k)
  | uncounted {x : PyExc} :
      Work cfg j v (.live j v) (.hincrby (requeueKey j) requeueField) (.error x)
        (.yielding j v .blip)
  | expiry {n : Nat} (hle : 1 ≤ cfg.requeueMax) :
      Work cfg j v (.expiring j v) (.expire (requeueKey j) n) (.ok ()) (.yielding j v (.counted 1))
  | overExpiry {n : Nat} (hlt : cfg.requeueMax < 1) :
      Work cfg j v (.expiring j v) (.expire (requeueKey j) n) (.ok ()) (.orphaning j 1)
  | noExpiry {n : Nat} {x : PyExc} :
      Work cfg j v (.expiring j v) (.expire (requeueKey j) n) (.error x) (.yielding j v .blip)

section OfRun

variable {j : Uuid} {v : Json} {o : Op} {q : Phase}

theorem work_update {set : JobSet} (h : set.IsMark ∨ set.IsSuccess ∨ set.IsFailure)
    (r : Except PyExc Unit) :
    Work cfg j v (.live j v) (.updateJob j set) r (Phase.worked cfg j v (.updateJob j set) r) := by
  rcases h with h | h | h
  · have hnext : Phase.worked cfg j v (.updateJob j set) r = .live j v := by
      cases r <;> exact if_pos h.status
    rw [hnext]
    exact .plain ⟨rfl, h⟩
  · have hne : set.status ≠ .processing := fun e => by
      cases h.status.symm.trans e
    cases r with
    | ok a =>
      rw [show Phase.worked cfg j v (.updateJob j set) (.ok a) = .closed j from if_neg hne]
      exact .closed rfl (Or.inl ⟨h, a, rfl⟩)
    | error x =>
      have hnext : Phase.worked cfg j v (.updateJob j set) (.error x) = .yielding j v .free :=
        (if_neg hne).trans (if_pos h.status)
      rw [hnext]
      exact .unsaved h
  · have hne : set.status ≠ .processing := fun e => by
      have hs := h.status
      rw [e] at hs
      cases hs
    have hne' : set.status ≠ .succeeded := fun e => by
      have hs := h.status
      rw [e] at hs
      cases hs
    have hnext : Phase.worked cfg j v (.updateJob j set) r = .closed j := by
      cases r with
      | ok a => exact if_neg hne
      | error x => exact (if_neg hne).trans (if_neg hne')
    rw [hnext]
    exact .closed rfl (Or.inr h)

theorem work_count (r : Except PyExc Nat) :
    Work cfg j v (.live j v) (.hincrby (requeueKey j) requeueField) r
      (Phase.worked cfg j v (.hincrby (requeueKey j) requeueField) r) := by
  cases r with
  | error x => exact .uncounted
  | ok k =>
    simp only [Phase.worked, Phase.counted]
    by_cases hk : k = 1
    · subst hk
      exact .firstCount
    · rw [if_neg hk]
      by_cases hlt : cfg.requeueMax < k
      · rw [if_pos hlt]
        exact .overCount hk hlt
      · rw [if_neg hlt]
        exact .count hk (Nat.not_lt.mp hlt)

theorem work_live (hpre : Phase.Works j o) (r : Except PyExc (Ans o)) :
    Work cfg j v (.live j v) o r (Phase.worked cfg j v o r) := by
  cases o with
  | updateJob j' set => obtain ⟨rfl, h⟩ := hpre; exact work_update h r
  | touchJob j' =>
    cases hpre
    cases r with
    | error x => exact .untouched (Or.inr ⟨rfl, rfl⟩)
    | ok a => exact .touched (Or.inr ⟨rfl, rfl⟩)
  | hincrby key field => obtain ⟨rfl, rfl⟩ := hpre; exact work_count r
  | get => exact .plain trivial
  | setex => exact .plain trivial
  | request => exact .plain rfl
  | infer => exact .plain rfl
  | acquire => exact .plain rfl
  | generateContent => exact .plain rfl
  | sleep => exact .plain rfl
  | _ => cases hpre

theorem work_yielding {y : Yield} (hpre : Phase.pre cfg (.yielding j v y) o)
    (r : Except PyExc (Ans o)) :
    Work cfg j v (.yielding j v y) o r (Phase.next cfg (.yielding j v y) o r) := by
  rcases hpre with rfl | ⟨hy, hf⟩
  · cases r with
    | error x => exact .untouched (Or.inl rfl)
    | ok a => exact .touched (Or.inl rfl)
  · cases o with
    | updateJob j' set =>
      obtain ⟨rfl, h⟩ := hf
      exact .closed ⟨rfl, hy⟩ (Or.inr h)
    | _ => exact hf.elim

/-- **A call of a run is one of the work calls.** -/
theorem work (hp : p.OfRun j v) (hpre : Phase.pre cfg p o) (r : Except PyExc (Ans o)) :
    Work cfg j v p o r (Phase.next cfg p o r) := by
  cases p with
  | live j' v' => obtain ⟨rfl, rfl⟩ := hp; exact work_live hpre r
  | expiring j' v' =>
    obtain ⟨rfl, rfl⟩ := hp
    obtain ⟨n, rfl⟩ := hpre
    cases r with
    | error x => exact .noExpiry
    | ok a =>
      simp only [Phase.next, Phase.counted]
      by_cases hlt : cfg.requeueMax < 1
      · rw [if_pos hlt]
        exact .overExpiry hlt
      · rw [if_neg hlt]
        exact .expiry (Nat.not_lt.mp hlt)
  | yielding j' v' y => obtain ⟨rfl, rfl⟩ := hp; exact work_yielding hpre r
  | touched j' v' y =>
    obtain ⟨rfl, rfl⟩ := hp
    cases hpre
    cases r with
    | error x => exact .unpushed
    | ok a =>
      simp only [Phase.next, Phase.returned]
      by_cases hy : y = .blip
      · subst hy
        exact .pushedInBump
      · rw [if_neg hy]
        exact .pushed hy
  | failing j' y =>
    cases o with
    | updateJob j'' set =>
      obtain ⟨rfl, h⟩ := hpre
      cases (show _ = j from hp)
      exact .closed rfl (Or.inr h)
    | _ => exact hpre.elim
  | orphaning j' k =>
    cases hpre
    cases (show _ = j from hp)
    exact .closed rfl (Or.inr (isFailure_failSet _ _ _))
  | closed j' => exact hpre.elim
  | pushed j' y => exact hpre.elim
  | _ => exact hp.elim

/-- A run past its status check stays one, of the same job and URL. -/
theorem ofRun_of_work {r : Except PyExc (Ans o)} (h : Work cfg j v p o r q) : q.OfRun j v := by
  cases h <;> first | exact ⟨rfl, rfl⟩ | exact rfl

theorem ofRun_next (hp : p.OfRun j v) (hpre : Phase.pre cfg p o) (r : Except PyExc (Ans o)) :
    (Phase.next cfg p o r).OfRun j v :=
  ofRun_of_work (work hp hpre r)

end OfRun

/-- **All that a permitted call can do to a situation.** -/
inductive Advance : Phase → (o : Op) → Except PyExc (Ans o) → Phase → Prop where
  | run {j : Uuid} {v : Json} {p q : Phase} {o : Op} {r : Except PyExc (Ans o)}
      (hp : p.OfRun j v) (hq : q.OfRun j v) : Advance p o r q
  | popped {m : Str} {j : Uuid} {v : Json} (h : decodeMessage m = some (j, v)) :
      Advance .idle .brpop (.ok (some m)) (.unread j v)
  | poppedJunk {m : Str} (h : decodeMessage m = none) :
      Advance .idle .brpop (.ok (some m)) .ended
  | poppedNothing {r : Except PyExc (Option Str)} (h : ∀ m, r ≠ .ok (some m)) :
      Advance .idle .brpop r .ended
  | read {j : Uuid} {v : Json} {row : JobRow} (h : row.status.isTerminal = false) :
      Advance (.unread j v) (.selectJob j) (.ok (some row)) (.live j v)
  | readDone {j : Uuid} {v : Json} {row : Option JobRow}
      (h : ∀ x, row = some x → x.status.isTerminal = true) :
      Advance (.unread j v) (.selectJob j) (.ok row) .ended
  | readFailed {j : Uuid} {v : Json} {x : PyExc} :
      Advance (.unread j v) (.selectJob j) (.error x) (.yielding j v .free)
  | sampled {j : Uuid} {u : Str} {r : Except PyExc Nat} :
      Advance (.submitting j u) .llen r (.submitting j u)
  | inserted {j : Uuid} {u : Str} :
      Advance (.submitting j u) (.insertJob j .pending u) (.ok ()) (.inserted j u)
  | refused {j : Uuid} {u : Str} {x : PyExc} :
      Advance (.submitting j u) (.insertJob j .pending u) (.error x) .ended
  | enqueued {j : Uuid} {u : Str} {r : Except PyExc Unit} :
      Advance (.inserted j u) (.lpush (message j (.str u))) r .ended
  | selected {q q' : Nat} {rows : List JobRow} :
      Advance .sweepReady (.selectStale q q') (.ok rows) (.sweeping rows)
  | unselected {q q' : Nat} {x : PyExc} : Advance .sweepReady (.selectStale q q') (.error x) .ended
  | swept {row : JobRow} {rows : List JobRow} {r : Except PyExc Unit} :
      Advance (.sweeping (row :: rows)) (.updateJob row.jobId (staleSet row)) r (.sweeping rows)
  | purged {n : Nat} {r : Except PyExc Nat} : Advance .purging (.deleteOld n) r .ended

theorem advance_popped (r : Except PyExc (Option Str)) :
    Advance .idle .brpop r (Phase.next cfg .idle .brpop r) := by
  cases r with
  | error e => exact .poppedNothing fun m h => by simp at h
  | ok val =>
    cases val with
    | none => exact .poppedNothing fun m h => by simp at h
    | some m =>
      show Advance _ _ _ (Phase.popped (some m))
      simp only [Phase.popped, Option.bind_some]
      cases hm : decodeMessage m with
      | none => exact .poppedJunk hm
      | some x => exact .popped hm

theorem advance_read {j : Uuid} {v : Json} (r : Except PyExc (Option JobRow)) :
    Advance (.unread j v) (.selectJob j) r (Phase.next cfg (.unread j v) (.selectJob j) r) := by
  cases r with
  | error e => exact .readFailed
  | ok row =>
    show Advance _ _ _ (Phase.checked j v row)
    cases row with
    | none => exact .readDone fun x h => by simp at h
    | some x =>
      simp only [Phase.checked]
      cases hx : x.status.isTerminal with
      | true => exact .readDone fun y h => by cases h; exact hx
      | false => exact .read hx

/-- A permitted call advances its task. -/
theorem advance {o : Op} (hpre : Phase.pre cfg p o) (r : Except PyExc (Ans o)) :
    Advance p o r (Phase.next cfg p o r) := by
  by_cases hrun : ∃ j v, p.OfRun j v
  · obtain ⟨j, v, hj⟩ := hrun
    exact .run hj (ofRun_next hj hpre r)
  · cases p with
    | idle => cases hpre; exact advance_popped r
    | unread j v => cases hpre; exact advance_read r
    | submitting j u =>
      rcases hpre with rfl | rfl
      · exact .sampled
      · cases r with
        | error e => exact .refused
        | ok a => exact .inserted
    | inserted j u => cases hpre; cases r <;> exact .enqueued
    | sweepReady =>
      cases hpre
      cases r with
      | error e => exact .unselected
      | ok rows => exact .selected
    | sweeping rows =>
      obtain ⟨row, rows, rfl, rfl⟩ := hpre
      exact .swept
    | purging => cases hpre; cases r <;> exact .purged
    | ended => exact hpre.elim
    | live j v => exact absurd ⟨j, v, rfl, rfl⟩ hrun
    | expiring j v => exact absurd ⟨j, v, rfl, rfl⟩ hrun
    | yielding j v y => exact absurd ⟨j, v, rfl, rfl⟩ hrun
    | touched j v y => exact absurd ⟨j, v, rfl, rfl⟩ hrun
    | failing j y => exact absurd ⟨j, .null, rfl⟩ hrun
    | orphaning j k => exact absurd ⟨j, .null, rfl⟩ hrun
    | closed j => exact absurd ⟨j, .null, rfl⟩ hrun
    | pushed j y => exact absurd ⟨j, .null, rfl⟩ hrun

end Calls

end InvoiceOcr
