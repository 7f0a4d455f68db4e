/-
  File:      InvoiceOcr/Polling.lean
  Subject:   WHAT A CLIENT SEES (`get_receipt` of src/api/routes.py, the exception handlers of
             src/api/app.py). The answers to GETs made while the system runs.

  * `getReceipt`, `handled` -- the route, and what the application makes of what it raises;
  * `Polled`, `History` -- one GET in a state; a run with the polls of a client along it;
  * `Outage` -- the answer when the statement raises: 503 for an asyncpg error, 500 for what nobody
    handles;
  * **`poll_mirrors`** -- RUN: an answer mirrors the row, or the statement failed. A 200 carries an
    invoice; none of the route's defaults is ever used;
  * **`history_in_order`** -- RUN: a client sees 404, PENDING, then work or an outcome, then 404 for good;
  * **`history_final`** -- RUN: once a poll has read a terminal row its answer stays what the client
    sees, in the runs in which terminal rows are closed alone.
-/
import InvoiceOcr.Absorbing
import InvoiceOcr.ErrorCodes

namespace InvoiceOcr

open PyJson Async

/-! ## 1. The route -/

/-- `x or default` of an optional text. -/
def orText (x : Option Str) (default : Str) : Str :=
  match x with
  | some (c :: s) => c :: s
  | _ => default

/-- `_pending`. -/
def pendingEnvelope (jobId : Uuid) (statusVal msg : Str) : Dict :=
  [("job_id".toList, .str jobId.str), ("status".toList, .str statusVal), ("message".toList, .str msg)]

/-- The answer to a row, by its status; a status outside the enumeration is none. -/
def receiptResponse (jobId : Uuid) (record : JobRow) : Response :=
  match record.status with
  | .succeeded => ⟨200, record.result.getD []⟩
  | .pending => ⟨202, pendingEnvelope jobId record.status.value "still in flight".toList⟩
  | .processing => ⟨202, pendingEnvelope jobId record.status.value "still in flight".toList⟩
  | .failedPermanent =>
      errorResponse jobId 422 (orText record.errorCode "failed_permanent".toList)
        (orText record.errorMessage [])
  | .failedTransient =>
      errorResponse jobId 503 (orText record.errorCode "failed_transient".toList)
        (orText record.errorMessage [])

/-- `get_receipt`. -/
def getReceipt (jobId : Uuid) : Py Response :=
  (getJobRecord jobId).tryElse
    (fun e =>
      if e.isDatabaseUnavailable then
        .ret (errorResponse jobId 503 "database_unavailable".toList e.str)
      else .raise e)
    fun
    | none => .raise (.httpException 404 "job_not_found".toList)
    | some record => .ret (receiptResponse jobId record)

/-- `_envelope` of app.py. -/
def envelope (code msg : Str) (permanent : Bool) : Dict :=
  [("status".toList, .str (if permanent then "FAILED_PERMANENT".toList else "FAILED_TRANSIENT".toList)),
   ("error_code".toList, .str code), ("error_message".toList, .str msg)]

/-- The registered exception handlers, and FastAPI's own for an `HTTPException`. -/
def handled : PyExc → Response
  | .httpException code errorCode =>
      ⟨code, [("detail".toList, .obj [("error_code".toList, .str errorCode)])]⟩
  | e =>
      if e.isDatabaseUnavailable || e.isStorageTransientError then
        ⟨503, envelope e.errorCode e.str false⟩
      else ⟨500, envelope "internal_error".toList e.str false⟩

/-- The answer a client gets. -/
def answer : Except PyExc Response → Response
  | .ok r => r
  | .error e => handled e

/-- The answer for an unknown job. -/
def notFound : Response := handled (.httpException 404 "job_not_found".toList)

/-- The answer to what the table holds. -/
def rowResponse (jobId : Uuid) : Option JobRow → Response
  | none => notFound
  | some record => receiptResponse jobId record

/-! ## 2. One GET -/

/-- One GET: what the SELECT replied, and the answer. -/
structure Poll where
  told : Except PyExc (Option JobRow)
  answer : Response

/-- **A GET answered in a world.** Postgres raises no `HTTPException`. -/
def Polled (w : World) (j : Uuid) (p : Poll) : Prop :=
  ∃ x, Exec Sem (getReceipt j) w [⟨.selectJob j, p.told⟩] x w ∧ p.answer = answer x ∧
    ∀ e, p.told = .error e → e.isHTTPException = false

/-- The exception of the statement as the route sees it. -/
def mappedPg (e : PyExc) : PyExc := if e.isPgError then .databaseUnavailable e.str else e

/-- The answer when the statement fails. -/
def outageResponse (j : Uuid) (e : PyExc) : Response :=
  if (mappedPg e).isDatabaseUnavailable then
    errorResponse j 503 "database_unavailable".toList (mappedPg e).str
  else handled (mappedPg e)

/-- **An answer that tells of no row**: the statement raised `e`. -/
inductive Outage (j : Uuid) : PyExc → Response → Prop where
  /-- An asyncpg error: the route answers. -/
  | unavailable {e : PyExc} (h : (mappedPg e).isDatabaseUnavailable = true) :
      Outage j e (errorResponse j 503 "database_unavailable".toList (mappedPg e).str)
  /-- The handler of app.py for the program's own error. -/
  | transient {e : PyExc} (h : e.isStorageTransientError = true) :
      Outage j e ⟨503, envelope e.errorCode e.str false⟩
  /-- Any other exception: the fallback handler of app.py. -/
  | internal {e : PyExc} (hpg : (mappedPg e).isDatabaseUnavailable = false)
      (hst : e.isStorageTransientError = false) :
      Outage j e ⟨500, envelope "internal_error".toList e.str false⟩

theorem outage_response {j : Uuid} {e : PyExc} (h : e.isHTTPException = false) :
    Outage j e (outageResponse j e) := by
  unfold outageResponse
  split
  next hdb => exact .unavailable hdb
  next hdb =>
    have hraw : mappedPg e = e := by
      unfold mappedPg at hdb ⊢
      split at hdb
      · exact absurd rfl hdb
      · next hpg => exact if_neg hpg
    have hpg : (mappedPg e).isDatabaseUnavailable = false := Bool.not_eq_true _ ▸ hdb
    rw [hraw]
    cases hst : e.isStorageTransientError with
    | true =>
      have hresponse : handled e = ⟨503, envelope e.errorCode e.str false⟩ := by
        cases e <;> first | rfl | cases hst
      rw [hresponse]
      exact .transient hst
    | false =>
      have hresponse : handled e = ⟨500, envelope "internal_error".toList e.str false⟩ := by
        rw [hraw] at hpg
        cases e <;> first | rfl | (cases hpg; done) | (cases h; done) | cases hst
      rw [hresponse]
      exact .internal hpg hst

/-- The statement of a GET failed, and the answer says so. -/
def Poll.Failed (j : Uuid) (p : Poll) : Prop := ∃ e, p.told = .error e ∧ Outage j e p.answer

/-- A GET tells what the table holds, or that its statement failed. -/
theorem polled_cases {w : World} {j : Uuid} {p : Poll} (h : Polled w j p) :
    p.Failed j ∨ (p.told = .ok (w.jobs.find j) ∧ p.answer = rowResponse j (w.jobs.find j)) := by
  obtain ⟨told, a⟩ := p
  obtain ⟨x, hexec, rfl, hforeign⟩ := h
  obtain ⟨es₁, w₁, es₂, hes, ⟨row, hp, hk⟩ | ⟨e, hp, hh⟩⟩ := (exec_tryElse _ _ _ x).mp hexec
  · obtain ⟨r, hsem, rfl, hr⟩ := (exec_mapped _ _ _).mp hp
    obtain ⟨htold, rfl⟩ := List.cons.inj hes
    cases htold
    cases told with
    | error e => cases hr
    | ok row' =>
      cases hr
      obtain ⟨rfl, rfl⟩ := hsem
      refine Or.inr ⟨rfl, ?_⟩
      cases hrow : w₁.jobs.find j with
      | none =>
        rw [hrow] at hk
        obtain ⟨-, rfl, -⟩ := (exec_raise _ x).mp hk
        rfl
      | some record =>
        rw [hrow] at hk
        obtain ⟨-, rfl, -⟩ := (exec_ret _ x).mp hk
        rfl
  · obtain ⟨r, hsem, rfl, hr⟩ := (exec_mapped _ _ _).mp hp
    obtain ⟨htold, rfl⟩ := List.cons.inj hes
    cases htold
    cases told with
    | ok row' => cases hr
    | error e' =>
      cases hr
      have hanswer : answer x = outageResponse j e' := by
        unfold outageResponse
        split at hh
        · next hdb =>
          obtain ⟨-, rfl, -⟩ := (exec_ret _ x).mp hh
          exact (if_pos (c := (mappedPg e').isDatabaseUnavailable = true) hdb).symm
        · next hdb =>
          obtain ⟨-, rfl, -⟩ := (exec_raise _ x).mp hh
          exact (if_neg (c := (mappedPg e').isDatabaseUnavailable = true) hdb).symm
      exact Or.inl ⟨e', rfl, hanswer ▸ outage_response (hforeign e' rfl)⟩

/-- A GET that Postgres answers. -/
theorem polled_row (w : World) (j : Uuid) :
    Polled w j ⟨.ok (w.jobs.find j), rowResponse j (w.jobs.find j)⟩ := by
  have hread : Exec Sem (getJobRecord j) w [⟨.selectJob j, .ok (w.jobs.find j)⟩]
      (.ok (w.jobs.find j)) w :=
    (exec_mapped _ _ _).mpr ⟨.ok (w.jobs.find j), ⟨rfl, rfl⟩, rfl, rfl⟩
  cases hrow : w.jobs.find j with
  | none =>
    rw [hrow] at hread
    exact ⟨_, (exec_tryElse _ _ _ _).mpr
      ⟨_, w, [], (List.append_nil _).symm, Or.inl ⟨_, hread, .raise _ w⟩⟩, rfl, nofun⟩
  | some r =>
    rw [hrow] at hread
    exact ⟨_, (exec_tryElse _ _ _ _).mpr
      ⟨_, w, [], (List.append_nil _).symm, Or.inl ⟨_, hread, .ret _ w⟩⟩, rfl, nofun⟩

/-- A GET for the job that nobody popped, once it is swept. -/
def Sample.stalePoll : Poll where
  told := .ok (Sample.stale.2.world.jobs.find Sample.job)
  answer := rowResponse Sample.job (Sample.stale.2.world.jobs.find Sample.job)

theorem Sample.polled_stale : Polled Sample.stale.2.world Sample.job Sample.stalePoll :=
  polled_row _ _

/-! ## 3. Status mirroring -/

/-- **The answer mirrors the row.** -/
def MirrorsRow (D : Deployment) (j : Uuid) (r : JobRow) (a : Response) : Prop :=
  match r.status with
  | .pending => a = ⟨202, pendingEnvelope j "PENDING".toList "still in flight".toList⟩
  | .processing => a = ⟨202, pendingEnvelope j "PROCESSING".toList "still in flight".toList⟩
  | .succeeded => a.statusCode = 200 ∧ ∃ final, Postprocessed D final ∧
      r.result = some final.modelDump ∧ a.content = final.modelDump ∧
      InvoiceResult.modelValidateJson (dumps (.obj a.content)) = .ok final
  | .failedPermanent => ∃ code ∈ permanentCodes, ∃ msg, r.errorCode = some code ∧
      r.errorMessage = some msg ∧ a = errorResponse j 422 code msg
  | .failedTransient => ∃ code ∈ transientCodes, ∃ msg, r.errorCode = some code ∧
      r.errorMessage = some msg ∧ a = errorResponse j 503 code msg

/-- The answer mirrors what the table holds. -/
def Mirrors (D : Deployment) (j : Uuid) (row : Option JobRow) (a : Response) : Prop :=
  match row with
  | none => a = notFound
  | some r => MirrorsRow D j r a

/-- The defaults are for a code or a message that is missing. -/
theorem errorResponse_told {j : Uuid} {n : Nat} {r : JobRow} {code msg default : Str}
    (hcode : r.errorCode = some code) (hne : code ≠ []) (hmsg : r.errorMessage = some msg) :
    errorResponse j n (orText r.errorCode default) (orText r.errorMessage []) =
      errorResponse j n code msg := by
  rw [hcode, hmsg]
  cases code with
  | nil => exact absurd rfl hne
  | cons c s => cases msg <;> rfl

theorem not_empty_of_code {code : Str} (h : code ∈ permanentCodes ∨ code ∈ transientCodes) :
    code ≠ [] := by
  rintro rfl
  revert h
  decide

/-- The answer to a row that tells what its status needs. -/
theorem mirrors_row {D : Deployment} {j : Uuid} {r : JobRow} (h : r.Tells D) :
    MirrorsRow D j r (receiptResponse j r) := by
  unfold MirrorsRow receiptResponse
  cases hst : r.status with
  | pending => exact rfl
  | processing => exact rfl
  | succeeded =>
    obtain ⟨final, hpost, hres⟩ := h.succeeded hst
    refine ⟨rfl, final, hpost, hres, by rw [hres]; rfl, ?_⟩
    simp only [hres, Option.getD_some, InvoiceResult.modelValidateJson, loads_modelDump]
    exact InvoiceResult.modelValidate_dump final
  | failedPermanent =>
    obtain ⟨code, hmem, hcode, hmsg⟩ := h.failedPermanent hst
    obtain ⟨msg, hmsg⟩ := Option.isSome_iff_exists.mp hmsg
    exact ⟨code, hmem, msg, hcode, hmsg,
      errorResponse_told hcode (not_empty_of_code (Or.inl hmem)) hmsg⟩
  | failedTransient =>
    obtain ⟨code, hmem, hcode, hmsg⟩ := h.failedTransient hst
    obtain ⟨msg, hmsg⟩ := Option.isSome_iff_exists.mp hmsg
    exact ⟨code, hmem, msg, hcode, hmsg,
      errorResponse_told hcode (not_empty_of_code (Or.inr hmem)) hmsg⟩

section Runs

variable {D : Deployment} {w₀ : World} {tr : SysTrace} {s s' : SysState} {j : Uuid} {p : Poll}
  {l : Label Op Ans PyExc TaskName} {ps : List Poll} {r : JobRow}

/-- **Answers mirror rows**, in every reachable state, unless the statement failed. -/
theorem poll_mirrors (hD : D.Foreign) (h : D.sys.Run w₀ tr s) (h₀ : w₀.Tells D)
    (hforeign : ∀ e ∈ tr, AnswersIn Foreign e.2) (hp : Polled s.world j p) :
    p.Failed j ∨
      (p.told = .ok (s.world.jobs.find j) ∧ Mirrors D j (s.world.jobs.find j) p.answer) := by
  rcases polled_cases hp with hfailed | ⟨htold, hanswer⟩
  · exact Or.inl hfailed
  · refine Or.inr ⟨htold, ?_⟩
    rw [hanswer]
    cases hrow : s.world.jobs.find j with
    | none => exact rfl
    | some r => exact mirrors_row (rows_tell hD h h₀ hforeign j r hrow)

theorem poll_mirrors_stale : Sample.stalePoll.Failed Sample.job ∨
    (Sample.stalePoll.told = .ok (Sample.stale.2.world.jobs.find Sample.job) ∧
      Mirrors Sample.deployment Sample.job (Sample.stale.2.world.jobs.find Sample.job)
        Sample.stalePoll.answer) :=
  poll_mirrors foreign_sample Sample.run_stale (fun _ _ h => by cases h)
    (fun e he => answersIn_of_foreign (List.all_eq_true.mp (by decide +kernel :
      (Sample.stale.1.all fun e => answersForeign e.2) = true) e he)) Sample.polled_stale

/-! ## 4. Histories -/

/-- **A run and the polls of a client along it**, the latest first. -/
inductive History (D : Deployment) (w₀ : World) (j : Uuid) :
    SysTrace → SysState → List Poll → Prop where
  | start : History D w₀ j [] ⟨w₀, []⟩ []
  | step {tr : SysTrace} {s s' : SysState} {l : Label Op Ans PyExc TaskName} {ps : List Poll}
      (h : History D w₀ j tr s ps) (hs : D.sys.Step s l s') : History D w₀ j ((s, l) :: tr) s' ps
  | poll {tr : SysTrace} {s : SysState} {ps : List Poll} {p : Poll}
      (h : History D w₀ j tr s ps) (hp : Polled s.world j p) : History D w₀ j tr s (p :: ps)

/-- A client that asks nothing. -/
theorem History.of_run (h : D.sys.Run w₀ tr s) : History D w₀ j tr s [] := by
  induction h with
  | start => exact .start
  | step _ hs ih => exact .step ih hs

theorem History.run (h : History D w₀ j tr s ps) : D.sys.Run w₀ tr s := by
  induction h with
  | start => exact .start
  | step _ hs ih => exact .step ih hs
  | poll _ _ ih => exact ih

/-- A client that asks twice about the swept job. -/
theorem Sample.history_stale : History Sample.deployment (World.fresh 0) Sample.job
    Sample.stale.1 Sample.stale.2 [Sample.stalePoll, Sample.stalePoll] :=
  .poll (.poll (.of_run Sample.run_stale) Sample.polled_stale) Sample.polled_stale

/-- **The stages of a job**: unknown, PENDING, past that, gone. -/
def AtStage (j : Uuid) (s : SysState) : Nat → Prop
  | 0 => s.world.jobs.find j = none ∧ ¬ Used j s
  | 1 => ∃ r, s.world.jobs.find j = some r ∧ r.status = .pending
  | 2 => ∃ r, s.world.jobs.find j = some r ∧ r.status ≠ .pending
  | 3 => s.world.jobs.find j = none ∧ Used j s
  | _ => False

/-- What a client can see at a stage. -/
def Shows (j : Uuid) (p : Poll) : Nat → Prop
  | 1 => p.Failed j ∨ p.answer = ⟨202, pendingEnvelope j "PENDING".toList "still in flight".toList⟩
  | 2 => p.Failed j ∨
      p.answer = ⟨202, pendingEnvelope j "PROCESSING".toList "still in flight".toList⟩ ∨
      p.answer.statusCode = 200 ∨ p.answer.statusCode = 422 ∨ p.answer.statusCode = 503
  | _ => p.Failed j ∨ p.answer = notFound

theorem exists_stage (j : Uuid) (s : SysState) : ∃ n, AtStage j s n := by
  cases hrow : s.world.jobs.find j with
  | none =>
    by_cases hused : Used j s
    · exact ⟨3, hrow, hused⟩
    · exact ⟨0, hrow, hused⟩
  | some r =>
    by_cases hst : r.status = .pending
    · exact ⟨1, r, hrow, hst⟩
    · exact ⟨2, r, hrow, hst⟩

/-- A GET shows the stage the job is at. -/
theorem shows_of_polled {n : Nat} (hp : Polled s.world j p) (hn : AtStage j s n) : Shows j p n := by
  rcases polled_cases hp with hfailed | ⟨_, hanswer⟩
  · match n with
    | 0 => exact Or.inl hfailed
    | 1 => exact Or.inl hfailed
    | 2 => exact Or.inl hfailed
    | n + 3 => exact Or.inl hfailed
  · obtain ⟨told, a⟩ := p
    cases hanswer
    match n, hn with
    | 0, ⟨hnone, _⟩ => exact Or.inr (by rw [hnone])
    | 3, ⟨hnone, _⟩ => exact Or.inr (by rw [hnone])
    | 1, ⟨r, hrow, hst⟩ =>
      refine Or.inr ?_
      rw [hrow]
      simp only [receiptResponse, hst]
      rfl
    | 2, ⟨r, hrow, hst⟩ =>
      refine Or.inr ?_
      rw [hrow]
      simp only [receiptResponse]
      cases h : r.status with
      | pending => exact absurd h hst
      | processing => exact Or.inl rfl
      | succeeded => exact Or.inr (Or.inl rfl)
      | failedPermanent => exact Or.inr (Or.inr (Or.inl rfl))
      | failedTransient => exact Or.inr (Or.inr (Or.inr rfl))

/-- STEP: a job does not go back to an earlier stage. -/
theorem stage_step (h : D.sys.Run w₀ tr s) (hempty : ∀ j, w₀.jobs.find j = none)
    (hs : D.sys.Step s l s') {n n' : Nat} (hn : AtStage j s n) (hn' : AtStage j s' n') : n ≤ n' := by
  have hdated : w₀.Dated := fun j r hr => by cases (hempty j).symm.trans hr
  -- a row and what becomes of it
  have hrow : ∀ r, s.world.jobs.find j = some r →
      (∃ r', s'.world.jobs.find j = some r' ∧ r'.LaterThan r) ∨
        (s'.world.jobs.find j = none ∧ Used j s') := by
    intro r hr
    rcases laterThan_step h (dated_run h hdated) hs hr with hthere | ⟨hgone, _⟩
    · exact Or.inl hthere
    · exact Or.inr ⟨hgone, used_step hs (used_run h hempty hr)⟩
  match n, hn with
  | 0, _ => exact Nat.zero_le _
  | 1, ⟨r, hr, _⟩ =>
    match n', hn' with
    | 0, ⟨hnone, hused⟩ =>
      rcases hrow r hr with ⟨r', hr', _⟩ | ⟨_, hs'⟩
      · cases hnone.symm.trans hr'
      · exact absurd hs' hused
    | n' + 1, _ => exact Nat.succ_le_succ (Nat.zero_le _)
  | 2, ⟨r, hr, hst⟩ =>
    match n', hn' with
    | 0, ⟨hnone, hused⟩ =>
      rcases hrow r hr with ⟨r', hr', _⟩ | ⟨_, hs'⟩
      · cases hnone.symm.trans hr'
      · exact absurd hs' hused
    | 1, ⟨r₁, hr₁, hst₁⟩ =>
      rcases hrow r hr with ⟨r', hr', hlater⟩ | ⟨hnone, _⟩
      · cases hr₁.symm.trans hr'
        exact absurd (hlater.pending hst₁) hst
      · cases hnone.symm.trans hr₁
    | n' + 2, _ => exact Nat.le_add_left _ _
  | 3, ⟨hnone, hused⟩ =>
    have hnone' := used_none hs hused hnone
    match n', hn' with
    | 0, ⟨_, h0⟩ => exact absurd (used_step hs hused) h0
    | 1, ⟨r, hr, _⟩ => cases hnone'.symm.trans hr
    | 2, ⟨r, hr, _⟩ => cases hnone'.symm.trans hr
    | 3, _ => exact Nat.le_refl _

/-- **A client sees the stages in their order**, in every run from an empty table and whenever it
    asks. -/
theorem history_in_order (hempty : ∀ j, w₀.jobs.find j = none) (h : History D w₀ j tr s ps) :
    ∃ stages : List Nat, stages.Pairwise (fun later earlier => earlier ≤ later) ∧
      List.Forall₂ (Shows j) ps stages := by
  -- what was seen is behind what can be seen
  have hinv : ∃ stages : List Nat, stages.Pairwise (fun later earlier => earlier ≤ later) ∧
      List.Forall₂ (Shows j) ps stages ∧ ∀ n, AtStage j s n → ∀ k ∈ stages, k ≤ n := by
    induction h with
    | start => exact ⟨[], .nil, .nil, fun _ _ k hk => absurd hk List.not_mem_nil⟩
    | @step tr s s' l ps h hs ih =>
      obtain ⟨stages, hsorted, hshows, hbehind⟩ := ih
      refine ⟨stages, hsorted, hshows, fun n' hn' k hk => ?_⟩
      obtain ⟨n, hn⟩ := exists_stage j s
      exact Nat.le_trans (hbehind n hn k hk) (stage_step h.run hempty hs hn hn')
    | @poll tr s ps p h hp ih =>
      obtain ⟨stages, hsorted, hshows, hbehind⟩ := ih
      obtain ⟨n, hn⟩ := exists_stage j s
      refine ⟨n :: stages, List.pairwise_cons.mpr ⟨hbehind n hn, hsorted⟩,
        .cons (shows_of_polled hp hn) hshows, fun n' hn' k hk => ?_⟩
      rcases List.mem_cons.mp hk with rfl | hk
      · -- a state is at one stage
        have hone : ∀ {a b : Nat}, AtStage j s a → AtStage j s b → a ≤ b := by
          intro a b ha hb
          match a, ha, b, hb with
          | 0, _, _, _ => exact Nat.zero_le _
          | 1, _, 1, _ => exact Nat.le_refl _
          | 2, _, 2, _ => exact Nat.le_refl _
          | 3, _, 3, _ => exact Nat.le_refl _
          | 1, _, n + 2, _ => omega
          | 2, _, 3, _ => omega
          | 1, ⟨r, hr, _⟩, 0, ⟨hnone, _⟩ => cases hnone.symm.trans hr
          | 2, ⟨r, hr, _⟩, 0, ⟨hnone, _⟩ => cases hnone.symm.trans hr
          | 2, ⟨r, hr, hst⟩, 1, ⟨r', hr', hst'⟩ =>
            cases hr.symm.trans hr'
            exact absurd hst' hst
          | 3, ⟨_, hused⟩, 0, ⟨_, h0⟩ => exact absurd hused h0
          | 3, ⟨hnone, _⟩, 1, ⟨r, hr, _⟩ => cases hnone.symm.trans hr
          | 3, ⟨hnone, _⟩, 2, ⟨r, hr, _⟩ => cases hnone.symm.trans hr
        exact hone hn hn'
      · exact hbehind n' hn' k hk
  obtain ⟨stages, hsorted, hshows, _⟩ := hinv
  exact ⟨stages, hsorted, hshows⟩

theorem history_in_order_stale : ∃ stages : List Nat,
    stages.Pairwise (fun later earlier => earlier ≤ later) ∧
      List.Forall₂ (Shows Sample.job) [Sample.stalePoll, Sample.stalePoll] stages :=
  history_in_order (fun _ => rfl) Sample.history_stale

/-! ## 5. Outcomes -/

/-- The poll read a terminal row. -/
def Poll.Final (p : Poll) : Prop := ∃ r, p.told = .ok (some r) ∧ r.status.isTerminal = true

/-- What has become of an outcome that a client saw: its row is still terminal and still answers so,
    or it is gone. -/
def Stands (j : Uuid) (a : Response) (s : SysState) : Prop :=
  (∃ r, s.world.jobs.find j = some r ∧ r.status.isTerminal = true ∧ receiptResponse j r = a) ∨
    (s.world.jobs.find j = none ∧ Used j s)

/-- What a poll read stands where it was read. -/
theorem stands_of_polled (hp : Polled s.world j p) (hfinal : p.Final) : Stands j p.answer s := by
  obtain ⟨r, hr, hterm⟩ := hfinal
  rcases polled_cases hp with ⟨e, he, _⟩ | ⟨htold, hanswer⟩
  · cases hr.symm.trans he
  · have hrow : s.world.jobs.find j = some r := by
      rw [hr] at htold
      exact (Except.ok.inj htold).symm
    rw [hrow] at hanswer
    exact Or.inl ⟨r, hrow, hterm, hanswer.symm⟩

/-- Rows with one outcome are answered alike. -/
theorem receiptResponse_congr {r r' : JobRow} (h : SameOutcome r r') :
    receiptResponse j r' = receiptResponse j r := by
  obtain ⟨hst, hres, hcode, hmsg⟩ := h
  unfold receiptResponse
  rw [hst, hres, hcode, hmsg]

/-- STEP: where nobody owes a terminal job a write, an outcome stands. -/
theorem stands_step (hempty : ∀ j, w₀.jobs.find j = none) (h : D.sys.Run w₀ tr s)
    (howe : NobodyOwes s) (hs : D.sys.Step s l s') {a : Response} (hst : Stands j a s) :
    Stands j a s' := by
  rcases hst with ⟨r, hrow, hterm, ha⟩ | ⟨hnone, hused⟩
  · have hused := used_step hs (used_run h hempty hrow)
    cases hs with
    | spawn => exact Or.inl ⟨r, hrow, hterm, ha⟩
    | drift hd => exact Or.inl ⟨r, by rw [← hrow, ← jobs_of_drift hd], hterm, ha⟩
    | @call i n o k x w' ht hsem =>
      have hchange := rowChange_of_sem hsem j
      cases hchange with
      | same he => exact Or.inl ⟨r, he.trans hrow, hterm, ha⟩
      | inserted he _ => cases he.symm.trans hrow
      | updated =>
        exact absurd (Proc.reaches_head _ ⟨_, rfl⟩) (howe j r hrow hterm i _ ht)
      | touched he =>
        rw [hrow] at he
        exact Or.inl ⟨_, he, hterm, (receiptResponse_congr ⟨rfl, rfl, rfl, rfl⟩).trans ha⟩
      | @purged window _ he =>
        rw [hrow] at he
        cases hold : r.isOld s.world.now window with
        | true =>
          rw [Option.filter_some, if_neg (by simp [hold])] at he
          exact Or.inr ⟨he, hused⟩
        | false =>
          rw [Option.filter_some, if_pos (by simp [hold])] at he
          exact Or.inl ⟨r, he, hterm, ha⟩
  · exact Or.inr ⟨used_none hs hused hnone, used_step hs hused⟩

/-- **An outcome that a client has seen stays what it sees**, until the job is purged: in every run
    in which no status check of a terminal job fails and no terminal write lands while another task
    owes the job a write. -/
theorem history_final (hempty : ∀ j, w₀.jobs.find j = none) (h : History D w₀ j tr s ps)
    (hG : ∀ e ∈ tr, ReadsLive e ∧ ClosesAlone e) :
    ps.Pairwise fun later earlier => earlier.Final →
      later.answer = earlier.answer ∨ (later.told = .ok none ∧ later.answer = notFound) ∨
        later.Failed j := by
  have hinv : (ps.Pairwise fun later earlier => earlier.Final →
      later.answer = earlier.answer ∨ (later.told = .ok none ∧ later.answer = notFound) ∨
        later.Failed j) ∧ ∀ p ∈ ps, p.Final → Stands j p.answer s := by
    induction h with
    | start => exact ⟨.nil, fun p hp => absurd hp List.not_mem_nil⟩
    | step h hs ih =>
      have hpast := fun e he => hG e (List.mem_cons_of_mem _ he)
      obtain ⟨hpair, hstands⟩ := ih hpast
      have howe := (nobodyOwes_run h.run hpast).2
      exact ⟨hpair, fun p hp hfinal => stands_step hempty h.run howe hs (hstands p hp hfinal)⟩
    | @poll tr s ps q h hq ih =>
      obtain ⟨hpair, hstands⟩ := ih hG
      refine ⟨List.pairwise_cons.mpr ⟨fun p hp hfinal => ?_, hpair⟩, fun p hp hfinal => ?_⟩
      · rcases polled_cases hq with hfailed | ⟨htold, hanswer⟩
        · exact Or.inr (Or.inr hfailed)
        · rcases hstands p hp hfinal with ⟨r, hrow, _, he⟩ | ⟨hnone, _⟩
          · exact Or.inl (by rw [hanswer, hrow]; exact he)
          · rw [hnone] at htold hanswer
            exact Or.inr (Or.inl ⟨htold, hanswer⟩)
      · rcases List.mem_cons.mp hp with rfl | hp
        · exact stands_of_polled hq hfinal
        · exact hstands p hp hfinal
  exact hinv.1

theorem history_final_stale :
    [Sample.stalePoll, Sample.stalePoll].Pairwise fun later earlier => earlier.Final →
      later.answer = earlier.answer ∨ (later.told = .ok none ∧ later.answer = notFound) ∨
        later.Failed Sample.job :=
  history_final (fun _ => rfl) Sample.history_stale fun e he => conditions_of_closesQuietly
    (List.all_eq_true.mp (by decide +kernel : Sample.stale.1.all closesQuietly = true) e he)

end Runs

end InvoiceOcr
