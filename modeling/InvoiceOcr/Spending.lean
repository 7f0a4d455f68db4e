/-
  File:      InvoiceOcr/Spending.lean
  Subject:   ONE TOKEN, ONE MODEL CALL. A lifecycle acquires a token once and extracts; the extraction
             may call Gemini again.

  * `Paid` -- calls started so far against tokens granted so far, of one worker process;
  * `spending` -- the monitor: a call to Gemini spends what was acquired; `spending_iteration` -- a
    pass obeys where no answer makes it retry;
  * **`calls_paid`** -- RUN: then every call is paid for at every moment;
  * `retry_unpaid` -- a server error, and the second call has no token.
-/
import InvoiceOcr.Async.Tally
import InvoiceOcr.Footprint
import InvoiceOcr.Transparency

namespace InvoiceOcr

open PyJson Async

/-! ## 1. Calls and tokens of a process -/

/-- Task `i` is a pass of worker process `p`. -/
def isPassOf (p : Nat) (s : SysState) (i : Nat) : Bool :=
  s.tasks[i]?.map (·.name) = some (.worker p)

/-- `TokenBucket.acquire` returned True. -/
def isGrant (p : Nat) (e : SysState × Label Op Ans PyExc TaskName) : Bool :=
  match e.2 with
  | .call i .acquire (.ok true) => isPassOf p e.1 i
  | _ => false

/-- A call to Gemini ended, with a result or an exception. -/
def isAnswered (p : Nat) (e : SysState × Label Op Ans PyExc TaskName) : Bool :=
  match e.2 with
  | .call i (.generateContent _) _ => isPassOf p e.1 i
  | _ => false

/-- A call to Gemini is under way. -/
def isCalling (p : Nat) (t : Task Op Ans PyExc TaskName) : Bool :=
  match t.name, t.rest with
  | .worker q, .call (.generateContent _) _ => q = p
  | _, _ => false

/-- The calls to Gemini that the process has started. -/
def started (p : Nat) (tr : SysTrace) (s : SysState) : Nat :=
  tr.countP (isAnswered p) + s.tasks.countP (isCalling p)

/-- **Every call to Gemini is paid for.** -/
def Paid (p : Nat) (tr : SysTrace) (s : SysState) : Prop :=
  started p tr s ≤ tr.countP (isGrant p)

/-- `(genai_errors.ServerError, asyncio.TimeoutError)`: what `extract_invoice` retries on. -/
def PyExc.isRetried : PyExc → Bool
  | .genaiServerError _ => true
  | .timeoutError _ => true
  | _ => false

/-- The step answers no call to Gemini with what leads to a retry, or there are no retries. -/
def Unretried (cfg : Settings) (l : Label Op Ans PyExc TaskName) : Prop :=
  cfg.geminiBackoffsSeconds = [] ∨
    ∀ i req e, l = .call i (.generateContent req) (.error e) → e.isRetried = false

/-! ## 2. What a token buys -/

/-- A task with what it was started as, and whether it has a token left to spend. -/
structure Purse where
  owner : TaskName
  granted : Bool

namespace Purse

/-- Gemini is called with a token in hand. -/
def pre (q : Purse) : Op → Prop
  | .generateContent _ => q.granted = true
  | _ => True

def next (q : Purse) : (o : Op) → Except PyExc (Ans o) → Purse
  | .acquire, .ok b => { q with granted := b }
  | .generateContent _, _ => { q with granted := false }
  | _, _ => q

/-- The tokens of a process that a task has left. -/
def held (p : Nat) (q : Purse) : Nat := (decide (q.owner = .worker p) && q.granted).toNat

end Purse

/-- The monitor of the tokens. -/
def spending (cfg : Settings) : Monitor Op Ans PyExc Purse where
  pre := Purse.pre
  rely
    | _, .generateContent _, .error e => cfg.geminiBackoffsSeconds = [] ∨ e.isRetried = false
    | _, _, _ => True
  next := Purse.next

section Stages

variable {wk : Worker} {j : Uuid} {v : Json} {α : Type} {q : Purse}

/-- Bodies that have nothing to do with Gemini leave a task with what it has. -/
theorem spending_quiet {cfg : Settings} {p : Py α} (hp : p.OnlyCalls Op.NoGemini) :
    wp (spending cfg) (fun _ q' => q' = q) p q := by
  refine wp_quiet (fun o ho => ?_) (fun o r ho => ?_) hp fun _ => rfl
  · cases o <;> first | exact trivial | exact ho.elim
  · cases o <;> first | rfl | exact ho.elim

theorem noGemini_of_storage {p : Py α} (h : p.OnlyCalls Op.IsStorage) : p.OnlyCalls Op.NoGemini :=
  onlyCalls_mono (fun _ ho => ho.noGemini) h

/-- Any end will do for a body that has nothing to do with Gemini. -/
theorem spending_free {cfg : Settings} {p : Py α} (hp : p.OnlyCalls Op.NoGemini) :
    wp (spending cfg) (fun _ _ => True) p q :=
  wp_mono (fun _ _ _ => trivial) (spending_quiet hp)

/-- A step that has nothing to do with Gemini, and what follows it. -/
theorem spending_tryElse {cfg : Settings} {β : Type} {p : Py α} {h : PyExc → Py β} {k : α → Py β}
    (hp : p.OnlyCalls Op.NoGemini) (hok : ∀ a, wp (spending cfg) (fun _ _ => True) (k a) q)
    (herr : ∀ e, (h e).OnlyCalls Op.NoGemini) :
    wp (spending cfg) (fun _ _ => True) (p.tryElse h k) q := by
  refine wp_tryElse_of (spending_quiet hp) (fun a q' hq => ?_) fun e q' hq => ?_
  · subst hq
    exact hok a
  · subst hq
    exact spending_free (herr e)

/-- **One token is enough** for the attempts of an extraction that is not made to retry. -/
theorem spending_attempts {cfg : Settings} (req : GenerateRequest) (attempt : Nat)
    (rest : List Nat) (last : Str) (hq : q.granted = true) :
    wp (spending cfg) (fun _ _ => True)
      (extractAttempts cfg.geminiBackoffsSeconds req (attempt :: rest) last) q := by
  refine wp_tryElse_of
    (R := fun x _ => ∀ e, x = .error e → cfg.geminiBackoffsSeconds = [] ∨ e.isRetried = false)
    ((wp_await _ _).mpr ⟨hq, fun r hr => ?_⟩) (fun text q' _ => ?_) fun e q' he => ?_
  · intro e heq
    subst heq
    exact hr
  · exact (wp_ofExcept _ _).mpr trivial
  · have hgiveUp : ∀ {again : Py InvoiceResult}, e.isRetried = true →
        wp (spending cfg) (fun _ _ => True)
          (backOff cfg.geminiBackoffsSeconds e attempt again) q' := by
      intro again hretried
      rcases he e rfl with hnone | hno
      · rw [hnone]
        exact trivial
      · rw [hretried] at hno
        simp at hno
    split
    · split <;> exact trivial
    · exact hgiveUp rfl
    · exact hgiveUp rfl
    · exact trivial

theorem spending_extractInvoice {cfg : Settings} (hb : wk.cfg.geminiBackoffsSeconds = cfg.geminiBackoffsSeconds)
    (crop : Image) (hq : q.granted = true) :
    wp (spending cfg) (fun _ _ => True) (extractInvoice wk.cfg wk.lib crop) q := by
  refine spending_tryElse (onlyCalls_ofExcept _) (fun _ => ?_) fun _ => trivial
  refine spending_tryElse (onlyCalls_ofExcept _) (fun _ => ?_) fun _ => trivial
  refine spending_tryElse (onlyCalls_ofExcept _) (fun jpeg => ?_) fun _ => trivial
  rw [hb, List.range_succ_eq_map]
  exact spending_attempts _ 0 _ _ hq

theorem noGemini_detectInvoice (cfg : Settings) (lib : Externals) (img : Image) :
    (detectInvoice cfg lib img).OnlyCalls Op.NoGemini := by
  have hinfer : ∀ batch, (inferYolo batch).OnlyCalls Op.NoGemini := fun batch =>
    onlyCalls_bind (onlyCalls_mapped (o := .infer _) trivial _) fun resp => onlyCalls_ofExcept resp
  refine onlyCalls_bind (onlyCalls_ofExcept _) fun lb => onlyCalls_bind (hinfer _) fun out => ?_
  cases out with
  | some out => exact onlyCalls_ofExcept _
  | none => exact trivial

theorem noGemini_httpxGet (lib : Externals) : ∀ (fuel : Nat) (url : Str),
    (httpxGet lib fuel url).OnlyCalls Op.NoGemini
  | fuel, url => by
    unfold httpxGet
    refine onlyCalls_bind (onlyCalls_await trivial) fun resp => ?_
    cases resp.redirect? with
    | none => exact trivial
    | some location =>
      cases fuel with
      | zero => exact trivial
      | succ fuel => exact onlyCalls_bind (onlyCalls_ofExcept _) fun next => noGemini_httpxGet lib fuel next

theorem noGemini_downloadImage (cfg : Settings) (lib : Externals) (imageUrl : Json) :
    (downloadImage cfg lib imageUrl).OnlyCalls Op.NoGemini := by
  cases imageUrl with
  | str url =>
    refine onlyCalls_tryElse ?_ (fun _ => trivial) fun _ => trivial
    exact onlyCalls_bind (noGemini_httpxGet lib _ _) fun _ => onlyCalls_ofExcept _
  | _ => exact trivial

variable {cfg : Settings} (hb : wk.cfg.geminiBackoffsSeconds = cfg.geminiBackoffsSeconds)

include hb

theorem spending_extract (phash : Str) (crop : Image) (hq : q.granted = true) :
    wp (spending cfg) (fun _ _ => True) (extractStage wk j v phash crop) q := by
  refine wp_tryElse_of (spending_extractInvoice hb crop hq) (fun raw q' _ => ?_) fun e q' _ => ?_
  · exact spending_free (noGemini_of_storage (storage_afterExtract phash raw))
  · refine spending_free (noGemini_of_storage ?_)
    split
    · exact storage_yield
    · split
      · exact storage_requeue
      · split
        · exact storage_fail _ _ _
        · exact trivial

theorem spending_acquire (phash : Str) (crop : Image) :
    wp (spending cfg) (fun _ _ => True) (acquireStage wk j v phash crop) q := by
  refine wp_bind_of (R := fun x q' => ∀ b, x = .ok b → q'.granted = b)
    ((wp_await _ _).mpr ⟨trivial, fun r _ => ?_⟩) (fun granted q' hq => ?_) fun _ _ _ => trivial
  · intro b heq
    subst heq
    exact rfl
  · cases granted with
    | true => exact spending_extract hb phash crop (hq true rfl)
    | false => exact spending_free (noGemini_of_storage storage_yield)

theorem spending_detect (pp : PreprocessResult) :
    wp (spending cfg) (fun _ _ => True) (detectStage wk j v pp) q := by
  refine spending_tryElse (noGemini_detectInvoice _ _ _) (fun crop => spending_acquire hb _ crop)
    fun e => noGemini_of_storage ?_
  split
  · exact storage_fail _ _ _
  · split
    · exact storage_requeue
    · exact trivial

theorem spending_cache (pp : PreprocessResult) :
    wp (spending cfg) (fun _ _ => True) (cacheStage wk j v pp) q := by
  refine spending_tryElse
    (noGemini_of_storage (onlyCalls_suppress (storage_getPhashCache _) _ _)) (fun cachedRaw => ?_)
    fun _ => trivial
  cases cachedInvoice cachedRaw with
  | some raw => exact spending_free (noGemini_of_storage (storage_finish raw))
  | none => exact spending_detect hb pp

theorem spending_preprocess (record : JobRow) (raw : Bytes) :
    wp (spending cfg) (fun _ _ => True) (preprocessStage wk j v record raw) q := by
  refine spending_tryElse (onlyCalls_ofExcept _) (fun pp => ?_) fun e => noGemini_of_storage ?_
  · unfold phashStage
    split
    · refine spending_tryElse (noGemini_of_storage (onlyCalls_suppress (storage_update _) _ _))
        (fun _ => spending_cache hb pp) fun _ => trivial
    · exact spending_cache hb pp
  · split
    · exact storage_fail _ _ _
    · exact trivial

theorem spending_body : wp (spending cfg) (fun _ _ => True) (lifecycleBody wk j v) q := by
  have hread : (getJobRecord j).OnlyCalls Op.IsStorage := storage_mapped (o := .selectJob j) rfl _
  have hyield : ∀ e : PyExc, (if e.isDatabaseUnavailable then yieldToQueue j v else .raise e :
      Py Unit).OnlyCalls Op.NoGemini := by
    intro e
    refine noGemini_of_storage ?_
    split
    · exact storage_yield
    · exact trivial
  refine spending_tryElse (noGemini_of_storage hread) (fun row => ?_) hyield
  cases row with
  | none => exact trivial
  | some record =>
    simp only
    split
    · exact trivial
    · refine spending_tryElse (noGemini_of_storage (storage_update _)) (fun _ => ?_) hyield
      refine spending_tryElse (noGemini_downloadImage _ _ _) (fun raw => spending_preprocess hb record raw)
        fun e => noGemini_of_storage ?_
      split
      · exact storage_fail _ _ _
      · split
        · exact storage_requeue
        · exact trivial

theorem spending_iteration :
    wp (spending cfg) (fun _ _ => True) (workerIteration jsonDepth (executeTaskLifecycle wk)) q := by
  refine spending_tryElse (onlyCalls_pop trivial _) (fun msg => ?_) fun _ => trivial
  cases msg with
  | none => exact trivial
  | some msg =>
    refine wp_tryElse_of (R := fun _ _ => True) ?_ (fun _ _ _ => trivial) fun _ _ _ => trivial
    refine spending_tryElse (onlyCalls_ofExcept _) (fun m => ?_) fun _ => trivial
    refine wp_tryElse_of (spending_body hb) (fun _ _ _ => trivial) fun e _ _ => ?_
    exact spending_free (noGemini_of_storage (storage_handler e))

end Stages

/-- **The protocol of the tokens.** -/
def Deployment.spendingProtocol (D : Deployment) : D.sys.Protocol Purse where
  toMonitor := spending D.cfg
  start n := ⟨n, false⟩
  final _ _ := True
  boots
    | .worker _ => spending_iteration rfl
    | .submit _ u =>
      spending_free (noGemini_of_storage (onlyCalls_bind (storage_submit _ u) fun _ => trivial))
    | .sweep => spending_free (noGemini_of_storage (storage_sweep))
    | .purge => spending_free (noGemini_of_storage (storage_purge))

/-! ## 3. The account -/

section Account

variable {D : Deployment} {w₀ w' : World} {tr : SysTrace} {s : SysState} {i p : Nat} {n : TaskName}
  {o : Op} {k : Except PyExc (Ans o) → Py Unit} {r : Except PyExc (Ans o)} {q : Purse}
  {qs : List Purse}

/-- **The account of a process**: the calls that ended and the tokens still held are within what was
    granted. -/
structure Account (p : Nat) (tr : SysTrace) (s : SysState) (qs : List Purse) : Prop where
  owners : ∀ (i : Nat) t q, s.tasks[i]? = some t → qs[i]? = some q → q.owner = t.name
  balance : tr.countP (isAnswered p) + tally (Purse.held p) qs ≤ tr.countP (isGrant p)

theorem isPassOf_task (ht : s.tasks[i]? = some ⟨n, .call o k⟩) :
    isPassOf p s i = decide (n = .worker p) := by
  unfold isPassOf
  rw [ht]
  exact decide_eq_decide.mpr ⟨fun h => Option.some.inj h, fun h => congrArg some h⟩

/-- STEP: an ended call was paid for, a granted token is held. -/
theorem balance_step (ht : s.tasks[i]? = some ⟨n, .call o k⟩) (howner : q.owner = n)
    (hpre : q.pre o) :
    (isAnswered p (s, .call i o r)).toNat + (q.next o r).held p ≤
      (isGrant p (s, .call i o r)).toNat + q.held p := by
  obtain ⟨owner, granted⟩ := q
  subst howner
  have hpass : isPassOf p s i = decide (owner = .worker p) := isPassOf_task ht
  cases o with
  | acquire =>
    cases r with
    | error e => exact Nat.le_refl _
    | ok b =>
      cases b with
      | false =>
        show 0 + (decide (owner = .worker p) && false).toNat ≤ _
        rw [Bool.and_false]
        exact Nat.zero_le _
      | true =>
        show 0 + (decide (owner = .worker p) && true).toNat ≤ (isPassOf p s i).toNat + _
        rw [hpass, Bool.and_true]
        omega
  | generateContent req =>
    have hgranted : granted = true := hpre
    show (isPassOf p s i).toNat + (decide (owner = .worker p) && false).toNat ≤
      0 + (decide (owner = .worker p) && granted).toNat
    rw [hpass, hgranted, Bool.and_false, Bool.and_true]
    exact Nat.le_of_eq (Nat.add_comm _ _)
  | _ => exact Nat.le_refl _

theorem toNat_eq_ite (b : Bool) : b.toNat = if b = true then 1 else 0 := by
  cases b <;> rfl

theorem account_call (ht : s.tasks[i]? = some ⟨n, .call o k⟩) (hq : qs[i]? = some q)
    (hpre : q.pre o) (h : Account p tr s qs) :
    Account p ((s, .call i o r) :: tr) ⟨w', s.tasks.set i ⟨n, k r⟩⟩ (qs.set i (q.next o r)) where
  owners m t q' hm hq' := by
    have hown := h.owners i _ q ht hq
    rcases getElem?_set_cases hm with ⟨rfl, rfl⟩ | ⟨hne, hm⟩ <;>
      rcases getElem?_set_cases hq' with ⟨he, rfl⟩ | ⟨hne', hq'⟩
    · have hkeep : (q.next o r).owner = q.owner := by
        cases o <;> cases r <;> rfl
      rw [hkeep]
      exact hown
    · exact absurd rfl hne'
    · exact absurd he hne
    · exact h.owners m t q' hm hq'
  balance := by
    have hstep := balance_step (r := r) ht (h.owners i _ q ht hq) hpre (p := p)
    have hset := tally_set (f := Purse.held p) (q := q.next o r) hq
    have hbal := h.balance
    rw [List.countP_cons, List.countP_cons, ← toNat_eq_ite, ← toNat_eq_ite]
    omega

/-- A step without a call neither ends a call nor grants a token. -/
theorem countP_uncalled {f : SysState × Label Op Ans PyExc TaskName → Bool}
    {l : Label Op Ans PyExc TaskName} (h : f (s, l) = false) :
    List.countP f ((s, l) :: tr) = tr.countP f := by
  rw [List.countP_cons, h]
  rfl

theorem account_run (h : D.sys.Run w₀ tr s) (p : Nat) (hG : ∀ e ∈ tr, Unretried D.cfg e.2) :
    D.spendingProtocol.Obeyed tr s ∧ Account p tr s (D.spendingProtocol.phases tr) := by
  refine D.spendingProtocol.run_invariant (G := fun _ l => Unretried D.cfg l)
    (I := fun tr s qs => Account p tr s qs) ⟨nofun, Nat.le_refl _⟩ ?_ ?_ ?_ h hG
  · intro tr s i n o k r w' q _ _ hI ht hq hpre _ hG
    refine ⟨?_, account_call ht hq hpre hI⟩
    cases o with
    | generateContent req =>
      cases r with
      | ok text => exact trivial
      | error e => exact hG.imp_right fun hno => hno i req e rfl
    | _ => exact trivial
  · intro tr s n _ hob hI _ _
    refine ⟨fun i t q ht hq => ?_, ?_⟩
    · rcases getElem?_append_cases ht with ⟨rfl, rfl⟩ | ht
      · rcases getElem?_append_cases hq with ⟨_, rfl⟩ | hq
        · exact rfl
        · have hlt := (List.getElem?_eq_some_iff.mp hq).1
          rw [← hob.length] at hlt
          exact absurd hlt (Nat.lt_irrefl _)
      · obtain ⟨q', hq'⟩ := hob.phase ht
        have hlt := (List.getElem?_eq_some_iff.mp hq').1
        rw [List.getElem?_append_left hlt] at hq
        exact hI.owners i t q ht hq
    · rw [countP_uncalled rfl, countP_uncalled rfl, tally_append]
      have hzero : Purse.held p ⟨n, false⟩ = 0 := by
        unfold Purse.held
        rw [Bool.and_false]
        rfl
      have hbal := hI.balance
      show _ + (_ + Purse.held p ⟨n, false⟩) ≤ _
      omega
  · intro tr s w' _ _ hI _ _
    refine ⟨hI.owners, ?_⟩
    rw [countP_uncalled rfl, countP_uncalled rfl]
    exact hI.balance

/-- A call under way has its token. -/
theorem calling_le {ts : List (Task Op Ans PyExc TaskName)} (hlen : ts.length = qs.length)
    (h : ∀ (i : Nat) t q, ts[i]? = some t → qs[i]? = some q → isCalling p t = true → q.held p = 1) :
    ts.countP (isCalling p) ≤ tally (Purse.held p) qs := by
  induction ts generalizing qs with
  | nil => exact Nat.zero_le _
  | cons t ts ih =>
    cases qs with
    | nil => cases hlen
    | cons q qs =>
      have htail := ih (Nat.succ.inj hlen) fun i => h (i + 1)
      have hhead : (if isCalling p t = true then 1 else 0) ≤ q.held p := by
        split
        · next hc => rw [h 0 t q rfl rfl hc]
        · exact Nat.zero_le _
      rw [List.countP_cons, tally_cons]
      omega

/-- RUN: **every call is paid for**, where no answer leads to a retry. -/
theorem calls_paid (h : D.sys.Run w₀ tr s) (hG : ∀ e ∈ tr, Unretried D.cfg e.2) (p : Nat) :
    Paid p tr s := by
  obtain ⟨hob, hI⟩ := account_run h p hG
  have hcalling : s.tasks.countP (isCalling p) ≤
      tally (Purse.held p) (D.spendingProtocol.phases tr) := by
    refine calling_le hob.length fun i t q ht hq hc => ?_
    obtain ⟨n, rest⟩ := t
    have hown := hI.owners i _ q ht hq
    have hobeys := hob.obeys i _ q ht hq
    unfold isCalling at hc
    split at hc
    · next p' req k hname hrest =>
      cases hname
      cases hrest
      have hgranted : q.granted = true := hobeys.1
      have hp : p' = p := of_decide_eq_true hc
      subst hp
      unfold Purse.held
      rw [show q.owner = .worker p' from hown, hgranted]
      exact congrArg (fun b => (b && true).toNat) (decide_eq_true rfl)
    · simp at hc
  have hbal := hI.balance
  unfold Paid started
  omega

end Account

/-- A check of one step: no answer leads to a retry. -/
def unretried : Label Op Ans PyExc TaskName → Bool
  | .call _ (.generateContent _) (.error e) => !e.isRetried
  | _ => true

theorem unretried_of_check {cfg : Settings} {l : Label Op Ans PyExc TaskName}
    (h : unretried l = true) : Unretried cfg l := by
  refine Or.inr fun i req e hl => ?_
  subst hl
  simpa [unretried] using h

namespace Sample

/-- Gemini answers with a server error, the wait is over. -/
def overloaded : (o : Op) → Except PyExc (Ans o)
  | .generateContent _ => .error (.genaiServerError "503 UNAVAILABLE".toList)
  | .sleep _ => .ok ()
  | o => services o

/-- A job is downloaded, its invoice found, a token acquired; the first attempt fails, the second one
    is under way. -/
def retried : List Move :=
  [.spawn (.submit job url), .run 0, .run 0, .run 0, .spawn (.worker 0), .run 1, .run 1, .run 1,
    .serve 1 services, .run 1, .run 1, .serve 1 services, .serve 1 services, .serve 1 overloaded,
    .serve 1 overloaded]

theorem replays_retried : (caching.replay (World.fresh 0) retried).isSome = true := by
  decide +kernel

def retriedRun : SysTrace × SysState := (caching.replay (World.fresh 0) retried).get replays_retried

theorem run_retriedRun : caching.sys.Run (World.fresh 0) retriedRun.1 retriedRun.2 :=
  replay_get_run replays_retried

end Sample

/-- One extraction, one token. -/
theorem calls_paid_once : started 0 Sample.cachedRun.1 Sample.cachedRun.2 = 1 ∧
    Paid 0 Sample.cachedRun.1 Sample.cachedRun.2 := by
  have hall : Sample.cachedRun.1.all (fun e => unretried e.2) = true := by decide +kernel
  refine ⟨by decide +kernel, ?_⟩
  exact calls_paid Sample.run_cachedRun
    (fun e he => unretried_of_check (List.all_eq_true.mp hall e he)) 0

/-- **An unpaid call**: one token, two calls. -/
theorem retry_unpaid :
    Sample.caching.sys.Run (World.fresh 0) Sample.retriedRun.1 Sample.retriedRun.2 ∧
      started 0 Sample.retriedRun.1 Sample.retriedRun.2 = 2 ∧
      Sample.retriedRun.1.countP (isGrant 0) = 1 ∧
      ¬ Paid 0 Sample.retriedRun.1 Sample.retriedRun.2 := by
  have hstarted : started 0 Sample.retriedRun.1 Sample.retriedRun.2 = 2 := by decide +kernel
  have hgranted : Sample.retriedRun.1.countP (isGrant 0) = 1 := by decide +kernel
  refine ⟨Sample.run_retriedRun, hstarted, hgranted, fun hpaid => ?_⟩
  unfold Paid at hpaid
  omega

end InvoiceOcr
