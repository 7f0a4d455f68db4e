/-
  File:      InvoiceOcr/Retry.lean
  Subject:   WHEN A 503 IS WORTH A RETRY. What submit_receipt answers when both stores are healthy.

  * `HealthySem` -- a storage call takes effect whenever it can; a row that does not fit is refused
    with a PostgresError;
  * `healthy_submit` -- then the answer depends on the length of the URL only;
  * **`retry_helps_iff`** -- a body answered 503 is answered 202 by healthy stores exactly when its
    URL fits the column;
  * `retry_never_helps` -- a URL the request schema admits and the column does not.
-/
import InvoiceOcr.Submission

namespace InvoiceOcr

open PyJson Async

variable {cfg : Settings} {lib : Externals} {j : Uuid} {u : Str} {w w' : World}
  {es : List (Event Op Ans PyExc)}

/-- **Healthy stores**: what a storage call can do it does. -/
def HealthySem (w : World) (o : Op) (r : Except PyExc (Ans o)) (w' : World) : Prop :=
  Sem w o r w' ∧ ∀ e, r = .error e → o.isStage = false →
    (∀ a w'', ¬ Effect w o a w'') ∧ ∃ msg, e = .postgresError msg

/-- `image_url VARCHAR(512)`. -/
def imageUrlWidth : Nat := 512

/-- **A 503 on the body means that retrying can help**: submitted again to healthy stores below
    the reject threshold it is accepted. -/
def RetryHelps (cfg : Settings) (lib : Externals) (u : Str) : Prop :=
  (∃ j w es resp w', Exec Sem (submitReceipt cfg lib j u) w es (.ok resp) w' ∧
    resp.statusCode = 503) →
  ∀ j w es x w', w.jobs.find j = none → w.queue.length < cfg.backpressureQueueReject →
    Exec HealthySem (submitReceipt cfg lib j u) w es x w' → httpStatus x = 202

/-! ## 1. The calls of a request to healthy stores -/

/-- A call that can take effect does. -/
theorem healthy_effect {o : Op} {r : Except PyExc (Ans o)} (h : HealthySem w o r w')
    (ho : o.isStage = false) {a : Ans o} {w'' : World} (he : Effect w o a w'') :
    ∃ a', r = .ok a' ∧ Effect w o a' w' := by
  cases r with
  | ok a' => exact ⟨a', rfl, h.1⟩
  | error e => exact absurd he ((h.2 e rfl ho).1 a w'')

theorem healthy_backpressure {y : Except PyExc Unit}
    (hdepth : w.queue.length < cfg.backpressureQueueReject)
    (h : Exec HealthySem (checkBackpressure cfg) w es y w') : y = .ok () ∧ w' = w := by
  obtain ⟨es₁, w₁, es₂, rfl, ⟨depth, hp, hy⟩ | ⟨e, hp, hy⟩⟩ := (exec_tryElse _ _ _ y).mp h
  · obtain ⟨r, hsem, -, hr⟩ := (exec_mapped Op.llen _ _).mp hp
    obtain ⟨a, rfl, rfl, rfl⟩ := healthy_effect hsem rfl ⟨rfl, rfl⟩
    cases hr
    rw [if_neg (Nat.not_le.mpr hdepth)] at hy
    obtain ⟨-, rfl, rfl⟩ := (exec_ret _ y).mp hy
    exact ⟨rfl, rfl⟩
  · obtain ⟨r, hsem, -, hr⟩ := (exec_mapped Op.llen _ _).mp hp
    obtain ⟨a, rfl, -⟩ := healthy_effect hsem rfl ⟨rfl, rfl⟩
    cases hr

/-- The push is answered 202. -/
theorem healthy_enqueue {x : Except PyExc Response} (h : Exec HealthySem (enqueue j u) w es x w') :
    x = .ok (acceptedResponse j) := by
  obtain ⟨es₁, w₁, es₂, rfl, ⟨a, hp, hx⟩ | ⟨e, hp, hx⟩⟩ := (exec_tryElse _ _ _ x).mp h
  · exact ((exec_ret _ x).mp hx).2.1
  · obtain ⟨r, hsem, -, hr⟩ := (exec_mapped (Op.lpush _) _ _).mp hp
    obtain ⟨a, rfl, -⟩ := healthy_effect hsem rfl (a := ()) rfl
    cases hr

/-- The row insert decides. -/
theorem healthy_persist {x : Except PyExc Response} (hfree : w.jobs.find j = none)
    (h : Exec HealthySem (persistAndEnqueue j u) w es x w') :
    (u.length ≤ imageUrlWidth → x = .ok (acceptedResponse j)) ∧
      (imageUrlWidth < u.length → ∃ resp, x = .ok resp ∧ resp.statusCode = 503) := by
  obtain ⟨es₁, w₁, es₂, rfl, ⟨a, hp, hx⟩ | ⟨e, hp, hx⟩⟩ := (exec_tryElse _ _ _ x).mp h
  · obtain ⟨r, hsem, -, hr⟩ := (exec_mapped (Op.insertJob _ _ _) _ _).mp hp
    refine ⟨fun _ => healthy_enqueue hx, fun hlong => ?_⟩
    cases r with
    | error e => cases hr
    | ok a' =>
      obtain ⟨t, ht, -⟩ := hsem.1
      have hcheck : ¬ (pendingRow j u w.now).Check := fun hc => Nat.not_lt.mpr hc.2 hlong
      cases ht.symm.trans (Relational.Table.insert_of_not_check hcheck)
  · obtain ⟨r, hsem, -, hr⟩ := (exec_mapped (Op.insertJob _ _ _) _ _).mp hp
    refine ⟨fun hshort => ?_, fun _ => ?_⟩
    · have hcheck : (pendingRow j u w.now).Check := ⟨nofun, hshort⟩
      obtain ⟨t, ht⟩ := Relational.Table.insert_of_free (r := pendingRow j u w.now) hfree hcheck
      obtain ⟨a, rfl, -⟩ := healthy_effect hsem rfl (a := ()) ⟨t, ht, rfl⟩
      cases hr
    · cases r with
      | ok a => cases hr
      | error e' =>
        obtain ⟨-, msg, rfl⟩ := hsem.2 e' rfl rfl
        cases hr
        exact ⟨_, ((exec_ret _ x).mp hx).2.1, rfl⟩

/-- **What healthy stores answer** to a body that passes the allowlist. -/
theorem healthy_submit {x : Except PyExc Response} (hu : validateImageDomain cfg lib u = .ok ())
    (hfree : w.jobs.find j = none) (hdepth : w.queue.length < cfg.backpressureQueueReject)
    (h : Exec HealthySem (submitReceipt cfg lib j u) w es x w') :
    (u.length ≤ imageUrlWidth → httpStatus x = 202) ∧
      (imageUrlWidth < u.length → ∃ resp, x = .ok resp ∧ resp.statusCode = 503) := by
  have hbody : ∀ {es w₁ y}, Exec HealthySem
      ((checkBackpressure cfg).bind fun _ => validateAndPersist cfg lib j u) w es y w₁ →
      (u.length ≤ imageUrlWidth → y = .ok (acceptedResponse j)) ∧
        (imageUrlWidth < u.length → ∃ resp, y = .ok resp ∧ resp.statusCode = 503) := by
    intro es w₁ y h
    obtain ⟨es₁, w₂, es₂, rfl, ⟨a, hp, hy⟩ | ⟨e, hp, hy⟩⟩ := (exec_tryElse _ _ _ y).mp h
    · obtain ⟨-, rfl⟩ := healthy_backpressure hdepth hp
      unfold validateAndPersist at hy
      rw [hu] at hy
      exact healthy_persist hfree hy
    · obtain ⟨he, -⟩ := healthy_backpressure hdepth hp
      simp at he
  obtain ⟨es₁, w₁, es₂, rfl, ⟨resp, hp, hx⟩ | ⟨e, hp, hx⟩⟩ := (exec_tryElse _ _ _ x).mp h
  · obtain ⟨-, rfl, -⟩ := (exec_ret _ x).mp hx
    obtain ⟨hshort, hlong⟩ := hbody hp
    exact ⟨fun hle => by rw [hshort hle]; rfl, hlong⟩
  · obtain ⟨hshort, hlong⟩ := hbody hp
    rcases Nat.lt_or_ge imageUrlWidth u.length with hlt | hle
    · obtain ⟨resp, hresp, -⟩ := hlong hlt
      simp at hresp
    · cases hshort hle

/-! ## 2. Retrying -/

/-- Healthy stores answer. -/
theorem answer_healthySem (w : World) (o : Op) :
    HealthySem w o (w.answer (fun _ => none) (fun _ => .error (.exception [])) o).1
      (w.answer (fun _ => none) (fun _ => .error (.exception [])) o).2 := by
  refine ⟨answer_sem _ _ w o, fun e he ho => ?_⟩
  unfold World.answer at he
  simp only at he
  split at he
  · simp at he
  · next hnone =>
    rw [ho] at he
    cases he
    exact ⟨not_effect_of_act hnone ho, [], rfl⟩

theorem exec_healthy (cfg : Settings) (lib : Externals) (j : Uuid) (u : Str) (w : World) :
    ∃ es x w', Exec HealthySem (submitReceipt cfg lib j u) w es x w' := by
  obtain ⟨es, hes⟩ := exec_interp
    (h := World.answer (fun _ => none) fun _ => .error (.exception [])) answer_healthySem
    (submitReceipt cfg lib j u) w
  exact ⟨es, _, _, hes⟩

/-- **Retrying helps exactly when the URL fits its column** (or when no submission at all is below
    the reject threshold). -/
theorem retry_helps_iff (hu : validateImageDomain cfg lib u = .ok ()) :
    RetryHelps cfg lib u ↔ u.length ≤ imageUrlWidth ∨ cfg.backpressureQueueReject = 0 := by
  constructor
  · intro hhelps
    by_contra hno
    obtain ⟨hlong, hreject⟩ := not_or.mp hno
    have hdepth : (World.fresh 0).queue.length < cfg.backpressureQueueReject :=
      Nat.pos_of_ne_zero hreject
    -- the stores are healthy, and the answer is a 503
    obtain ⟨es, x, w', hes⟩ := exec_healthy cfg lib Sample.job u (World.fresh 0)
    obtain ⟨resp, rfl, hresp⟩ := (healthy_submit hu rfl hdepth hes).2 (Nat.not_le.mp hlong)
    have h503 := hes.mono fun _ _ _ _ h => h.1
    have h202 := hhelps ⟨_, _, _, _, _, h503, hresp⟩ _ _ _ _ _ rfl hdepth hes
    cases hresp.symm.trans h202
  · intro hcase _ j w es x w' hfree hdepth hes
    rcases hcase with hshort | hzero
    · exact (healthy_submit hu hfree hdepth hes).1 hshort
    · rw [hzero] at hdepth
      simp at hdepth

namespace Sample

/-- A URL of 600 characters on the allowed host. -/
def longUrl : Str := "https://img-campaign.gotit.vn/".toList ++ List.replicate 570 'a'

end Sample

/-- Retrying helps with the sample URL. -/
theorem retry_helps_short : RetryHelps Sample.deployment.cfg Sample.lib Sample.url :=
  (retry_helps_iff rfl).mpr (Or.inl (by decide))

/-- **A retry that never helps**: the URL passes the allowlist and the 2083 characters of `HttpUrl`,
    and every insert of it is refused. -/
theorem retry_never_helps : validateImageDomain Sample.deployment.cfg Sample.lib Sample.longUrl = .ok () ∧
    Sample.longUrl.length ≤ 2083 ∧ ¬ RetryHelps Sample.deployment.cfg Sample.lib Sample.longUrl := by
  have hlong : imageUrlWidth < Sample.longUrl.length := by decide +kernel
  have hdepth : (World.fresh 0).queue.length < Sample.deployment.cfg.backpressureQueueReject := by
    decide
  refine ⟨rfl, by decide +kernel, fun hhelps => ?_⟩
  obtain ⟨es, x, w', hes⟩ :=
    exec_healthy Sample.deployment.cfg Sample.lib Sample.job Sample.longUrl (World.fresh 0)
  obtain ⟨resp, rfl, hresp⟩ := (healthy_submit rfl rfl hdepth hes).2 hlong
  have h503 := hes.mono fun _ _ _ _ h => h.1
  have h202 := hhelps ⟨_, _, _, _, _, h503, hresp⟩ _ _ _ _ _ rfl hdepth hes
  cases hresp.symm.trans h202

end InvoiceOcr
