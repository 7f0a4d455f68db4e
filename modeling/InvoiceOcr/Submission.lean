/-
  File:      InvoiceOcr/Submission.lean
  Subject:   ONE SUBMISSION, run alone. What a request leaves in the jobs table and in the queue.

  * `ApiSem` -- the stores as a request meets them: a call takes effect, or raises with no effect;
  * `Submitted` -- the three ways a request can end; `submitted_receipt` -- it ends in one of them;
  * **`submission_iff`** -- the request is all or nothing exactly when not both the row was inserted
    and the push raised;
  * `submission_halfway` -- then the row stays behind a 503.
-/
import InvoiceOcr.Api
import InvoiceOcr.Replay

namespace InvoiceOcr

open PyJson Async

/-! ## 1. All or nothing -/

/-- The calls of a request; asyncpg and redis-py raise no `HTTPException`. -/
def ApiSem (w : World) (o : Op) (r : Except PyExc (Ans o)) (w' : World) : Prop :=
  Sem w o r w' ∧ ∀ e, r = .error e → e.isHTTPException = false

/-- **All or nothing**: 202 exactly when the row is there as PENDING and one message has been
    queued; otherwise table and queue are as before. -/
structure AllOrNothing (j : Uuid) (u : Str) (w : World) (x : Except PyExc Response) (w' : World) :
    Prop where
  accepted : httpStatus x = 202 ↔
    (∃ row, w'.jobs.find j = some row ∧ row.status = .pending) ∧
      w'.queue = message j (.str u) :: w.queue
  otherwise : httpStatus x ≠ 202 → w'.jobs = w.jobs ∧ w'.queue = w.queue

/-- The row insert took effect, and the push raised. -/
def Halfway (j : Uuid) (u : Str) (es : List (Event Op Ans PyExc)) : Prop :=
  ⟨.insertJob j .pending u, .ok ()⟩ ∈ es ∧ ∃ e, ⟨.lpush (message j (.str u)), .error e⟩ ∈ es

/-! ## 2. How a request ends -/

/-- The row a request inserts. -/
def pendingRow (j : Uuid) (u : Str) (now : Nat) : JobRow :=
  { jobId := j, status := .pending, imageUrl := u, createdAt := now, updatedAt := now }

/-- An outcome that the client does not see as 202, whether or not the outermost handler has
    looked at it. -/
def Refuses (x : Except PyExc Response) : Prop :=
  match x with
  | .ok resp => resp.statusCode ≠ 202
  | .error e => e.isHTTPException = false ∨ ∃ code, e = .httpException 429 code

/-- **The three ways a request can end.** -/
inductive Submitted (j : Uuid) (u : Str) (w : World) :
    List (Event Op Ans PyExc) → Except PyExc Response → World → Prop where
  | refused {es : List (Event Op Ans PyExc)} {x : Except PyExc Response} (h : Refuses x)
      (hes : ⟨.insertJob j .pending u, .ok ()⟩ ∉ es) : Submitted j u w es x w
  | accepted {es : List (Event Op Ans PyExc)} {t : JobsTable}
      (ht : w.jobs.insert (pendingRow j u w.now) = some t)
      (hes : ∀ e, ⟨.lpush (message j (.str u)), .error e⟩ ∉ es) :
      Submitted j u w es (.ok (acceptedResponse j))
        { w with jobs := t, queue := message j (.str u) :: w.queue }
  | halfway {es : List (Event Op Ans PyExc)} {x : Except PyExc Response} {t : JobsTable}
      (ht : w.jobs.insert (pendingRow j u w.now) = some t) (h : Refuses x) (hes : Halfway j u es) :
      Submitted j u w es x { w with jobs := t }

section Request

variable {cfg : Settings} {lib : Externals} {j : Uuid} {u : Str} {w w' : World}
  {es es' : List (Event Op Ans PyExc)} {x : Except PyExc Response}

/-- The backpressure check changes nothing, and passes or answers 429. -/
theorem exec_backpressure {y : Except PyExc Unit} (h : Exec ApiSem (checkBackpressure cfg) w es y w') :
    w' = w ∧ (∀ ev ∈ es, ev.op = .llen) ∧
      (y = .ok () ∨ ∃ code, y = .error (.httpException 429 code)) := by
  obtain ⟨es₁, w₁, es₂, rfl, hcase⟩ := (exec_tryElse _ _ _ y).mp h
  have hllen : ∀ {z : Except PyExc Nat}, Exec ApiSem getQueueDepth w es₁ z w₁ →
      w₁ = w ∧ ∀ ev ∈ es₁, ev.op = .llen := by
    intro z hz
    unfold getQueueDepth wrapRedisErrors at hz
    obtain ⟨r, hsem, rfl, _⟩ := (exec_mapped Op.llen _ _).mp hz
    refine ⟨?_, fun ev hev => by cases List.mem_singleton.mp hev; rfl⟩
    cases r with
    | ok a => exact hsem.1.2
    | error e => exact hsem.1
  rcases hcase with ⟨depth, hp, hy⟩ | ⟨e, hp, hy⟩
  · obtain ⟨rfl, hops⟩ := hllen hp
    split at hy
    · obtain ⟨rfl, rfl, rfl⟩ := (exec_raise _ y).mp hy
      rw [List.append_nil]
      exact ⟨rfl, hops, Or.inr ⟨_, rfl⟩⟩
    · obtain ⟨rfl, rfl, rfl⟩ := (exec_ret _ y).mp hy
      rw [List.append_nil]
      exact ⟨rfl, hops, Or.inl rfl⟩
  · obtain ⟨rfl, hops⟩ := hllen hp
    obtain ⟨rfl, rfl, rfl⟩ := (exec_ret _ y).mp hy
    rw [List.append_nil]
    exact ⟨rfl, hops, Or.inl rfl⟩

/-- The push, and the answer it selects. -/
theorem exec_enqueue (h : Exec ApiSem (enqueue j u) w es x w') :
    (es = [⟨.lpush (message j (.str u)), .ok ()⟩] ∧ x = .ok (acceptedResponse j) ∧
        w' = { w with queue := message j (.str u) :: w.queue }) ∨
      ∃ e, es = [⟨.lpush (message j (.str u)), .error e⟩] ∧ Refuses x ∧ w' = w := by
  obtain ⟨es₁, w₁, es₂, rfl, ⟨a, hp, hx⟩ | ⟨e, hp, hx⟩⟩ := (exec_tryElse _ _ _ x).mp h
  · obtain ⟨r, hsem, rfl, hr⟩ := (exec_mapped (Op.lpush _) _ _).mp hp
    obtain ⟨rfl, rfl, rfl⟩ := (exec_ret _ x).mp hx
    cases r with
    | error e => cases hr
    | ok a => exact Or.inl ⟨rfl, rfl, hsem.1⟩
  · obtain ⟨r, hsem, rfl, hr⟩ := (exec_mapped (Op.lpush _) _ _).mp hp
    cases r with
    | ok a => cases hr
    | error e₀ =>
      have hhttp := hsem.2 e₀ rfl
      cases hr
      refine Or.inr ⟨e₀, ?_⟩
      split at hx
      · obtain ⟨rfl, rfl, rfl⟩ := (exec_ret _ x).mp hx
        exact ⟨rfl, (by decide : (503 : Nat) ≠ 202), hsem.1⟩
      · obtain ⟨rfl, rfl, rfl⟩ := (exec_raise _ x).mp hx
        refine ⟨rfl, Or.inl ?_, hsem.1⟩
        show PyExc.isHTTPException (if _ then _ else _) = false
        split
        · rfl
        · exact hhttp

/-- The row insert, the push, and the answer they select. -/
theorem exec_persistAndEnqueue (h : Exec ApiSem (persistAndEnqueue j u) w es x w') :
    Submitted j u w es x w' := by
  obtain ⟨es₁, w₁, es₂, rfl, ⟨a, hp, hx⟩ | ⟨e, hp, hx⟩⟩ := (exec_tryElse _ _ _ x).mp h
  · obtain ⟨r, hsem, rfl, hr⟩ := (exec_mapped (Op.insertJob _ _ _) _ _).mp hp
    cases r with
    | error e => cases hr
    | ok a =>
      obtain ⟨t, ht, rfl⟩ := hsem.1
      rcases exec_enqueue hx with ⟨rfl, rfl, rfl⟩ | ⟨e, rfl, href, rfl⟩
      · refine .accepted ht fun e he => ?_
        rcases List.mem_cons.mp he with he | he
        · simp at he
        · cases List.mem_singleton.mp he
      · exact .halfway ht href ⟨List.mem_cons_self, e, List.mem_cons_of_mem _ List.mem_cons_self⟩
  · obtain ⟨r, hsem, rfl, hr⟩ := (exec_mapped (Op.insertJob _ _ _) _ _).mp hp
    cases r with
    | ok a => cases hr
    | error e₀ =>
      have hhttp := hsem.2 e₀ rfl
      have hw : w₁ = w := hsem.1
      subst hw
      have hev : ∀ es : List (Event Op Ans PyExc), es = [] →
          ⟨.insertJob j .pending u, .ok ()⟩ ∉
            ([⟨.insertJob j .pending u, .error e₀⟩] ++ es : List (Event Op Ans PyExc)) := by
        intro _ heq hmem
        subst heq
        cases List.mem_singleton.mp hmem
      cases hr
      split at hx
      · obtain ⟨rfl, rfl, rfl⟩ := (exec_ret _ x).mp hx
        exact .refused (by decide : (503 : Nat) ≠ 202) (hev _ rfl)
      · obtain ⟨rfl, rfl, rfl⟩ := (exec_raise _ x).mp hx
        refine .refused (Or.inl ?_) (hev _ rfl)
        show PyExc.isHTTPException (if _ then _ else _) = false
        split
        · rfl
        · exact hhttp

/-- The allowlist check changes nothing. -/
theorem exec_validateAndPersist
    (hlib : ∀ u e, lib.hostname u = .error e → e.isHTTPException = false)
    (h : Exec ApiSem (validateAndPersist cfg lib j u) w es x w') : Submitted j u w es x w' := by
  unfold validateAndPersist at h
  split at h
  · exact exec_persistAndEnqueue h
  · next e he =>
    have hhttp : e.isHTTPException = false := by
      unfold validateImageDomain at he
      cases hh : lib.hostname u with
      | error e' =>
        rw [hh] at he
        cases he
        exact hlib u _ hh
      | ok host =>
        rw [hh] at he
        simp only [bind, Except.bind] at he
        split at he
        · cases he
        · cases he
          rfl
    split at h
    · obtain ⟨rfl, rfl, rfl⟩ := (exec_ret _ x).mp h
      exact .refused (by decide : (400 : Nat) ≠ 202) List.not_mem_nil
    · obtain ⟨rfl, rfl, rfl⟩ := (exec_raise _ x).mp h
      exact .refused (Or.inl hhttp) List.not_mem_nil

/-- The events of the backpressure check add nothing to the three ways. -/
theorem submitted_append (hes : ∀ ev ∈ es, ev.op = .llen) (h : Submitted j u w es' x w') :
    Submitted j u w (es ++ es') x w' := by
  have hold : ∀ ev ∈ es ++ es', ev.op ≠ .llen → ev ∈ es' := by
    intro ev hev hne
    rcases List.mem_append.mp hev with hev | hev
    · exact absurd (hes ev hev) hne
    · exact hev
  cases h with
  | refused h hn => exact .refused h fun hmem => hn (hold _ hmem (by simp))
  | accepted ht hn => exact .accepted ht fun e hmem => hn e (hold _ hmem (by simp))
  | halfway ht h hh =>
    obtain ⟨hins, e, hpush⟩ := hh
    exact .halfway ht h ⟨List.mem_append_right _ hins, e, List.mem_append_right _ hpush⟩

/-- **A request ends in one of the three ways**, and a refusal is no 202. -/
theorem submitted_receipt
    (hlib : ∀ u e, lib.hostname u = .error e → e.isHTTPException = false)
    (h : Exec ApiSem (submitReceipt cfg lib j u) w es x w') :
    Submitted j u w es x w' ∧ (Refuses x → httpStatus x ≠ 202) := by
  have hbody : ∀ {es x w'}, Exec ApiSem
      ((checkBackpressure cfg).bind fun _ => validateAndPersist cfg lib j u) w es x w' →
      Submitted j u w es x w' := by
    intro es x w' h
    obtain ⟨es₁, w₁, es₂, rfl, ⟨a, hp, hx⟩ | ⟨e, hp, hx⟩⟩ := (exec_tryElse _ _ _ x).mp h
    · obtain ⟨rfl, hops, _⟩ := exec_backpressure hp
      exact submitted_append hops (exec_validateAndPersist hlib hx)
    · obtain ⟨rfl, hops, hy | ⟨code, hy⟩⟩ := exec_backpressure hp
      · simp at hy
      · cases hy
        obtain ⟨rfl, rfl, rfl⟩ := (exec_raise _ x).mp hx
        exact submitted_append hops (.refused (Or.inr ⟨code, rfl⟩) List.not_mem_nil)
  obtain ⟨es₁, w₁, es₂, rfl, ⟨resp, hp, hx⟩ | ⟨e, hp, hx⟩⟩ := (exec_tryElse _ _ _ x).mp h
  · obtain ⟨rfl, rfl, rfl⟩ := (exec_ret _ x).mp hx
    rw [List.append_nil]
    exact ⟨hbody hp, id⟩
  · -- the last-ditch handler: an `HTTPException` is the 429, anything else becomes a 500
    have hsub := hbody hp
    have hmono : ∀ {y : Except PyExc Response}, Refuses y → Submitted j u w es₁ y w₁ := by
      intro y hy
      cases hsub with
      | refused _ hn => exact .refused hy hn
      | halfway ht _ hh => exact .halfway ht hy hh
    have href : Refuses (.error e) := by
      cases hsub with
      | refused h _ => exact h
      | halfway _ h _ => exact h
    split at hx
    · next hhttp =>
      obtain ⟨rfl, rfl, rfl⟩ := (exec_raise _ x).mp hx
      rw [List.append_nil]
      refine ⟨hsub, fun _ => ?_⟩
      rcases href with hno | ⟨code, rfl⟩
      · rw [hhttp] at hno
        simp at hno
      · exact (by decide : (429 : Nat) ≠ 202)
    · obtain ⟨rfl, rfl, rfl⟩ := (exec_ret _ x).mp hx
      rw [List.append_nil]
      exact ⟨hmono (by decide : (500 : Nat) ≠ 202), fun _ => (by decide : (500 : Nat) ≠ 202)⟩

/-- **Submission is all or nothing** exactly when not both the row was inserted and the push
    raised. -/
theorem submission_iff
    (hlib : ∀ u e, lib.hostname u = .error e → e.isHTTPException = false)
    (h : Exec ApiSem (submitReceipt cfg lib j u) w es x w') :
    AllOrNothing j u w x w' ↔ ¬ Halfway j u es := by
  obtain ⟨hsub, hstatus⟩ := submitted_receipt hlib h
  cases hsub with
  | refused href hn =>
    have hne := hstatus href
    refine ⟨fun _ hh => hn hh.1, fun _ => ⟨⟨fun he => absurd he hne, fun ⟨_, hq⟩ => ?_⟩,
      fun _ => ⟨rfl, rfl⟩⟩⟩
    exact absurd hq.symm (List.cons_ne_self _ _)
  | accepted ht hn =>
    refine ⟨fun _ ⟨_, e, he⟩ => hn e he, fun _ => ⟨⟨fun _ => ⟨⟨pendingRow j u w.now, ?_, rfl⟩, rfl⟩,
      fun _ => rfl⟩, fun hne => absurd rfl hne⟩⟩
    exact (Relational.Table.find_insert ht j).trans (if_pos rfl)
  | halfway ht href hh =>
    refine ⟨fun hall => ?_, fun hn => absurd hh hn⟩
    -- the table has a row it did not have
    have hsame : _ = w.jobs := (hall.otherwise (hstatus href)).1
    subst hsame
    have hrow := (Relational.Table.find_insert ht j).trans (if_pos rfl)
    cases (Relational.Table.find_of_insert ht).symm.trans hrow

end Request

/-! ## 3. Concrete submissions -/

/-- Answers under faults that are no `HTTPException`; a request calls no service. -/
theorem answer_apiSem {faults : Op → Option PyExc}
    (hf : ∀ o e, faults o = some e → e.isHTTPException = false) (w : World) (o : Op) :
    ApiSem w o (w.answer faults (fun _ => .error (.exception [])) o).1
      (w.answer faults (fun _ => .error (.exception [])) o).2 := by
  refine ⟨answer_sem _ _ w o, fun e he => ?_⟩
  unfold World.answer at he
  split at he
  · next e' hfault =>
    cases he
    exact hf o _ hfault
  · split at he
    · simp at he
    · split at he <;> cases he <;> rfl

namespace Sample

/-- The submission of the sample job to empty stores, under faults. -/
def submitted (faults : Op → Option PyExc) : Except PyExc Response × World :=
  (submitReceipt deployment.cfg lib job url).interp
    (World.answer faults fun _ => .error (.exception [])) (World.fresh 0)

theorem exec_submitted {faults : Op → Option PyExc}
    (hf : ∀ o e, faults o = some e → e.isHTTPException = false) :
    ∃ es, Exec ApiSem (submitReceipt deployment.cfg lib job url) (World.fresh 0) es
      (submitted faults).1 (submitted faults).2 :=
  exec_interp _ (answer_apiSem hf) _ _

/-- Redis refuses the push. -/
def pushRefused : Op → Option PyExc
  | .lpush _ => some (.redisError [])
  | _ => none

end Sample

/-- A submission with both stores up. -/
theorem submission_accepted : ∃ es, httpStatus (Sample.submitted fun _ => none).1 = 202 ∧
    (AllOrNothing Sample.job Sample.url (World.fresh 0) (Sample.submitted fun _ => none).1
      (Sample.submitted fun _ => none).2 ↔ ¬ Halfway Sample.job Sample.url es) := by
  have hfaults : ∀ (o : Op) e, (fun _ => none : Op → Option PyExc) o = some e →
      e.isHTTPException = false := nofun
  obtain ⟨es, hes⟩ := Sample.exec_submitted hfaults
  exact ⟨es, by decide +kernel, submission_iff (fun _ _ h => by cases h) hes⟩

/-- **A 503 that leaves a row behind**: the insert took effect, the push raised. -/
theorem submission_halfway : ∃ es, Exec ApiSem
      (submitReceipt Sample.deployment.cfg Sample.lib Sample.job Sample.url) (World.fresh 0) es
      (Sample.submitted Sample.pushRefused).1 (Sample.submitted Sample.pushRefused).2 ∧
    httpStatus (Sample.submitted Sample.pushRefused).1 = 503 ∧
    ¬ AllOrNothing Sample.job Sample.url (World.fresh 0) (Sample.submitted Sample.pushRefused).1
      (Sample.submitted Sample.pushRefused).2 := by
  have hfaults : ∀ o e, Sample.pushRefused o = some e → e.isHTTPException = false := by
    intro o e he
    cases o <;> cases he
    rfl
  obtain ⟨es, hes⟩ := Sample.exec_submitted hfaults
  have hstatus : httpStatus (Sample.submitted Sample.pushRefused).1 = 503 := by decide +kernel
  have hrow : ((Sample.submitted Sample.pushRefused).2.jobs.find Sample.job).isSome = true := by
    decide +kernel
  refine ⟨es, hes, hstatus, fun hall => ?_⟩
  have hsame := (hall.otherwise (by rw [hstatus]; decide)).1
  rw [hsame] at hrow
  cases hrow

end InvoiceOcr
