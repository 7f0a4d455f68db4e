/-
  File:      InvoiceOcr/RowLife.lean
  Subject:   THE LIFE OF A ROW. What can become of a job's row between two states of a run.

  * `JobRow.LaterThan` -- a later version of a row: same URL and creation time, not PENDING again, no
    column null again, not written earlier;
  * `laterThan_step` -- STEP: a row stays and is a later version of itself, or a purge takes it;
  * `Used`, `used_run` -- RUN: once a job has had a row no task can insert one again;
  * **`row_life`** -- RUN: along every stretch of a run a row is still there in a later version, or was
    terminal and too old when a purge took it, and never comes back;
  * **`row_retained`** -- so it is there for the retention time after its last write.
-/
import InvoiceOcr.Provenance

namespace InvoiceOcr

open PyJson Async

/-! ## 1. One step -/

/-- **A later version of a row.** -/
structure JobRow.LaterThan (r' r : JobRow) : Prop where
  imageUrl : r'.imageUrl = r.imageUrl
  createdAt : r'.createdAt = r.createdAt
  updatedAt : r.updatedAt ≤ r'.updatedAt
  pending : r'.status = .pending → r.status = .pending
  phash : r.phash.isSome = true → r'.phash.isSome = true
  result : r.result.isSome = true → r'.result.isSome = true
  errorCode : r.errorCode.isSome = true → r'.errorCode.isSome = true
  errorMessage : r.errorMessage.isSome = true → r'.errorMessage.isSome = true

theorem JobRow.LaterThan.refl (r : JobRow) : r.LaterThan r :=
  ⟨rfl, rfl, Nat.le_refl _, id, id, id, id, id⟩

theorem JobRow.LaterThan.trans {r r' r'' : JobRow} (h' : r''.LaterThan r') (h : r'.LaterThan r) :
    r''.LaterThan r where
  imageUrl := h'.imageUrl.trans h.imageUrl
  createdAt := h'.createdAt.trans h.createdAt
  updatedAt := Nat.le_trans h.updatedAt h'.updatedAt
  pending hp := h.pending (h'.pending hp)
  phash hs := h'.phash (h.phash hs)
  result hs := h'.result (h.result hs)
  errorCode hs := h'.errorCode (h.errorCode hs)
  errorMessage hs := h'.errorMessage (h.errorMessage hs)

/-- A written column of an update is written afterwards. -/
theorem isSome_or {α : Type} {x y : Option α} (h : y.isSome = true) : (x.or y).isSome = true := by
  cases x with
  | none => exact h
  | some a => rfl

/-- Rows are not from the future. -/
def World.Dated (w : World) : Prop := ∀ j r, w.jobs.find j = some r → r.updatedAt ≤ w.now

theorem laterThan_update {r : JobRow} {set : JobSet} {now : Nat} (hnow : r.updatedAt ≤ now)
    (hset : set.status ≠ .pending) : ((set.apply now).run r).LaterThan r where
  imageUrl := rfl
  createdAt := rfl
  updatedAt := hnow
  pending h := absurd h hset
  phash := isSome_or
  result := isSome_or
  errorCode := isSome_or
  errorMessage := isSome_or

theorem laterThan_touch {r : JobRow} {now : Nat} (hnow : r.updatedAt ≤ now) :
    ((touchRow now).run r).LaterThan r :=
  ⟨rfl, rfl, hnow, id, id, id, id, id⟩

/-- No status write makes a row PENDING. -/
theorem not_pending_of_kind {set : JobSet} (h : set.IsMark ∨ set.IsSuccess ∨ set.IsFailure) :
    set.status ≠ .pending := by
  rcases h with h | h | h
  · rw [h.status]
    nofun
  · rw [h.status]
    nofun
  · intro he
    have hfailed := h.status
    rw [he] at hfailed
    cases hfailed

theorem Phase.pre_deleteOld {cfg : Settings} {p : Phase} {n : Nat}
    (h : Phase.pre cfg p (.deleteOld n)) : n = days cfg.jobRetentionDays := by
  cases p with
  | purging => cases h; rfl
  | live j v => exact absurd h (by simp [Phase.pre, Phase.Works, Op.IsStage, Op.isStage])
  | yielding j v y => exact absurd h (by simp [Phase.pre, Phase.FailsJob])
  | expiring j v => exact absurd h (by simp [Phase.pre])
  | submitting j u => exact absurd h (by simp [Phase.pre])
  | sweeping rows => exact absurd h (by simp [Phase.pre])
  | failing j y => exact h.elim
  | closed j => exact h.elim
  | pushed j y => exact h.elim
  | ended => exact h.elim
  | _ => cases h

section Steps

variable {D : Deployment} {w₀ : World} {tr seg : SysTrace} {s s' : SysState}
  {l : Label Op Ans PyExc TaskName} {j : Uuid} {r : JobRow}

/-- The purge step that takes the row `r` of the job. -/
def PurgeOf (D : Deployment) (j : Uuid) (r : JobRow) (s : SysState)
    (l : Label Op Ans PyExc TaskName) : Prop :=
  (∃ i n, l = .call i (.deleteOld (days D.cfg.jobRetentionDays)) (.ok n)) ∧
    s.world.jobs.find j = some r ∧ r.status.isTerminal = true ∧
    r.updatedAt + days D.cfg.jobRetentionDays < s.world.now

/-- **One step of a row's life.** -/
theorem laterThan_step (h : D.sys.Run w₀ tr s) (hdated : s.world.Dated) (hs : D.sys.Step s l s')
    (hrow : s.world.jobs.find j = some r) :
    (∃ r', s'.world.jobs.find j = some r' ∧ r'.LaterThan r) ∨
      (s'.world.jobs.find j = none ∧ PurgeOf D j r s l) := by
  have hob := D.protocol.obeyed_of_run (fun _ _ _ => trivial) h
  cases hs with
  | spawn ha => exact Or.inl ⟨r, hrow, .refl r⟩
  | drift hd =>
    refine Or.inl ⟨r, ?_, .refl r⟩
    rw [← hrow, ← jobs_of_drift hd]
  | @call i n o k x w' ht hsem =>
    obtain ⟨p, _, hpre⟩ := hob.permitted ht
    have hchange := rowChange_of_sem hsem j
    cases hchange with
    | same he => exact Or.inl ⟨r, he.trans hrow, .refl r⟩
    | inserted he _ => cases he.symm.trans hrow
    | @updated set he =>
      have hkind := Phase.updateJob_kind (show Phase.pre D.cfg p (.updateJob j set) from hpre)
      rw [hrow] at he
      exact Or.inl ⟨_, he, laterThan_update (hdated j r hrow) (not_pending_of_kind hkind)⟩
    | touched he =>
      rw [hrow] at he
      exact Or.inl ⟨_, he, laterThan_touch (hdated j r hrow)⟩
    | @purged window n he =>
      rw [Phase.pre_deleteOld (show Phase.pre D.cfg p (.deleteOld window) from hpre)] at he ⊢
      rw [hrow] at he
      cases hold : r.isOld s.world.now (days D.cfg.jobRetentionDays) with
      | false =>
        rw [Option.filter_some, if_pos (by simp [hold])] at he
        exact Or.inl ⟨r, he, .refl r⟩
      | true =>
        rw [Option.filter_some, if_neg (by simp [hold])] at he
        simp only [JobRow.isOld, Bool.and_eq_true, decide_eq_true_eq] at hold
        exact Or.inr ⟨he, ⟨i, n, rfl⟩, hrow, hold⟩

/-! ## 2. Runs -/

/-- The row of a job that has one after a step: it had one, or was inserted. -/
theorem inserted_or_had (hs : D.sys.Step s l s') (hrow : s'.world.jobs.find j = some r) :
    (∃ r₀, s.world.jobs.find j = some r₀) ∨
      ∃ i status u, l = .call i (.insertJob j status u) (.ok ()) := by
  cases hs with
  | spawn ha => exact Or.inl ⟨r, hrow⟩
  | drift hd => exact Or.inl ⟨r, by rw [← jobs_of_drift hd]; exact hrow⟩
  | @call i n o k x w' ht hsem =>
    have hchange := rowChange_of_sem hsem j
    cases hchange with
    | same he => exact Or.inl ⟨r, he ▸ hrow⟩
    | inserted he _ => exact Or.inr ⟨i, _, _, rfl⟩
    | updated he =>
      obtain ⟨old, hold, _⟩ := Option.map_eq_some_iff.mp (he.symm.trans hrow)
      exact Or.inl ⟨old, hold⟩
    | touched he =>
      obtain ⟨old, hold, _⟩ := Option.map_eq_some_iff.mp (he.symm.trans hrow)
      exact Or.inl ⟨old, hold⟩
    | purged he => exact Or.inl ⟨r, (Option.filter_eq_some_iff.mp (he.symm.trans hrow)).1⟩

/-- RUN: rows are not from the future. -/
theorem dated_run (h : D.sys.Run w₀ tr s) (h₀ : w₀.Dated) : s.world.Dated := by
  induction h with
  | start => exact h₀
  | @step tr s s' l h hs ih =>
    intro j r hrow
    cases hs with
    | spawn ha => exact ih j r hrow
    | drift hd =>
      exact Nat.le_trans (ih j r (by rw [← jobs_of_drift hd]; exact hrow)) (now_of_drift hd)
    | @call i n o k x w' ht hsem =>
      have hnow : w'.now = s.world.now := now_of_sem hsem
      show r.updatedAt ≤ w'.now
      rw [hnow]
      have hchange := rowChange_of_sem hsem j
      cases hchange with
      | same he => exact ih j r (he ▸ hrow)
      | inserted _ he =>
        cases Option.some.inj (he.symm.trans hrow)
        exact Nat.le_refl _
      | updated he =>
        obtain ⟨old, _, rfl⟩ := Option.map_eq_some_iff.mp (he.symm.trans hrow)
        exact Nat.le_refl _
      | touched he =>
        obtain ⟨old, _, rfl⟩ := Option.map_eq_some_iff.mp (he.symm.trans hrow)
        exact Nat.le_refl _
      | purged he => exact ih j r (Option.filter_eq_some_iff.mp (he.symm.trans hrow)).1

/-- No call inserts a row for the job. -/
def InsertsNot (j : Uuid) (o : Op) : Prop := ∀ status u, o ≠ .insertJob j status u

/-- A task that is not the job's own request inserts no row for it. -/
theorem insertsNot_of_own {n : TaskName} {q : Py Unit} (hq : q.OnlyCalls (InsertsOwn D n))
    (hn : ∀ u, n ≠ .submit j u) : q.OnlyCalls (InsertsNot j) :=
  onlyCalls_mono (fun _ ho status u he => hn u (ho j status u he).1) hq

/-- What a request does after its insert. -/
theorem insertsNot_after {q : Py Unit} {u : Str}
    (hq : wp (monitor D.cfg) (fun _ p => p.MayEnd) q (.inserted j u)) :
    q.OnlyCalls (InsertsNot j) := by
  refine onlyCalls_of_wp (N := Phase.NoInsert) (fun p o hp hpre status u he => ?_)
    (fun p o r hp hpre => noInsert_next hpre hp r) (fun _ _ _ => trivial) hq
    (fun j u h => by simp at h)
  subst he
  exact hp j u (Phase.pre_insertJob hpre).2

/-- **No task can insert a row for the job**, and its one request has been made. -/
structure Used (j : Uuid) (s : SysState) : Prop where
  submitted : ∃ u, TaskName.submit j u ∈ s.tasks.map (·.name)
  inserts : ∀ t ∈ s.tasks, t.rest.OnlyCalls (InsertsNot j)

/-- Two requests for one job are the same task. -/
theorem submit_index {i i' : Nat} {t t' : Task Op Ans PyExc TaskName} {u u' : Str}
    (h : D.sys.Run w₀ tr s) (ht : s.tasks[i]? = some t) (ht' : s.tasks[i']? = some t')
    (hu : t.name = .submit j u) (hu' : t'.name = .submit j u') : i = i' := by
  induction h generalizing i i' t t' with
  | start => cases ht
  | @step tr s s' l h hs ih =>
    cases hs with
    | drift => exact ih ht ht' hu hu'
    | @call m n o k x w' hm _ =>
      -- a move keeps the names, so the task at each place had the name before
      have hname : ∀ {a : Nat} {t : Task Op Ans PyExc TaskName},
          (s.tasks.set m ⟨n, k x⟩)[a]? = some t →
            ∃ t₀, s.tasks[a]? = some t₀ ∧ t₀.name = t.name := by
        intro a t hset
        rcases getElem?_set_cases hset with ⟨rfl, rfl⟩ | ⟨_, hset⟩
        · exact ⟨_, hm, rfl⟩
        · exact ⟨t, hset, rfl⟩
      obtain ⟨t₀, hold, he⟩ := hname ht
      obtain ⟨t₀', hold', he'⟩ := hname ht'
      exact ih hold hold' (he.trans hu) (he'.trans hu')
    | @spawn n ha =>
      have hfresh : ∀ {a : Nat} {t : Task Op Ans PyExc TaskName} {u u' : Str},
          s.tasks[a]? = some t → t.name = .submit j u → n ≠ .submit j u' := by
        intro a t u u' hold hname hn
        subst hn
        exact ha u (List.mem_map.mpr ⟨t, List.mem_of_getElem? hold, hname⟩)
      rcases getElem?_append_cases ht with ⟨rfl, rfl⟩ | hold <;>
        rcases getElem?_append_cases ht' with ⟨rfl, rfl⟩ | hold'
      · rfl
      · exact absurd hu (hfresh hold' hu')
      · exact absurd hu' (hfresh hold hu)
      · exact ih hold hold' hu hu'

/-- STEP: what is used up stays so. -/
theorem used_step (hs : D.sys.Step s l s') (h : Used j s) : Used j s' := by
  cases hs with
  | drift => exact ⟨h.submitted, h.inserts⟩
  | @call i n o k x w' ht _ =>
    refine ⟨by rw [names_set ht]; exact h.submitted, fun t hm => ?_⟩
    rcases List.mem_or_eq_of_mem_set hm with hm | rfl
    · exact h.inserts t hm
    · exact (h.inserts _ (List.mem_of_getElem? ht)).2 x
  | @spawn n ha =>
    obtain ⟨u, hu⟩ := h.submitted
    refine ⟨⟨u, by rw [List.map_append]; exact List.mem_append_left _ hu⟩, fun t hm => ?_⟩
    rcases List.mem_append.mp hm with hm | hm
    · exact h.inserts t hm
    · cases List.mem_singleton.mp hm
      refine insertsNot_of_own (insertsOwn_boot n) fun u' hn => ?_
      subst hn
      exact ha u hu

/-- STEP: an insert spends the job. -/
theorem used_insert {i : Nat} {status : JobStatus} {u : Str} (h : D.sys.Run w₀ tr s)
    (hs : D.sys.Step s (.call i (.insertJob j status u) (.ok ())) s') : Used j s' := by
  have hob := D.protocol.obeyed_of_run (fun _ _ _ => trivial) h
  cases hs with
  | @call _ n _ k _ w' ht hsem =>
    obtain ⟨p, hp, hpre⟩ := hob.permitted ht
    obtain ⟨rfl, rfl⟩ := Phase.pre_insertJob (show Phase.pre D.cfg p _ from hpre)
    have hown : InsertsOwn D n (.insertJob j .pending u) := (h.onlyCalls insertsOwn_boot ht).1
    have hname := (hown j _ u rfl).1
    refine ⟨⟨u, ?_⟩, fun t hm => ?_⟩
    · rw [names_set ht]
      exact List.mem_map.mpr ⟨_, List.mem_of_getElem? ht, hname⟩
    · obtain ⟨a, ha⟩ := List.mem_iff_getElem?.mp hm
      rcases getElem?_set_cases ha with ⟨_, rfl⟩ | ⟨hne, ha⟩
      · exact insertsNot_after ((hob.obeys i _ _ ht hp).2 (.ok ()) trivial)
      · exact insertsNot_of_own (h.onlyCalls insertsOwn_boot ha) fun u' hn =>
          hne (submit_index h ha ht hn hname)

/-- RUN: a job that has a row is used up, in every run from an empty table. -/
theorem used_run (h : D.sys.Run w₀ tr s) (hempty : ∀ j, w₀.jobs.find j = none)
    (hrow : s.world.jobs.find j = some r) : Used j s := by
  induction h generalizing r with
  | start => cases (hempty j).symm.trans hrow
  | @step tr s s' l h hs ih =>
    rcases inserted_or_had hs hrow with ⟨r₀, hold⟩ | ⟨i, status, u, rfl⟩
    · exact used_step hs (ih hold)
    · exact used_insert h hs

/-- A job that is used up and has no row gets none. -/
theorem used_none (hs : D.sys.Step s l s') (h : Used j s) (hnone : s.world.jobs.find j = none) :
    s'.world.jobs.find j = none := by
  cases hrow : s'.world.jobs.find j with
  | none => rfl
  | some r' =>
    rcases inserted_or_had hs hrow with ⟨r₀, hold⟩ | ⟨i, status, u, rfl⟩
    · cases hnone.symm.trans hold
    · cases hs with
      | call ht _ => exact absurd rfl ((h.inserts _ (List.mem_of_getElem? ht)).1 status u)

/-! ## 3. The life of a row -/

/-- Any step. -/
abbrev Anything : SysState → Label Op Ans PyExc TaskName → SysState → Prop := fun _ _ _ => True

/-- **What has become of a row**: it is there in a later version, or a purge of the stretch took it. -/
def Later (D : Deployment) (seg : SysTrace) (s' : SysState) (j : Uuid) (r : JobRow) : Prop :=
  (∃ r', s'.world.jobs.find j = some r' ∧ r'.LaterThan r) ∨
    (s'.world.jobs.find j = none ∧
      ∃ e ∈ seg, ∃ r₁ : JobRow, r₁.LaterThan r ∧ PurgeOf D j r₁ e.1 e.2)

/-- RUN: what has become of a row, and that its job stays used up. -/
theorem later_run (h : D.sys.Run w₀ tr s) (hempty : ∀ j, w₀.jobs.find j = none)
    (hrow : s.world.jobs.find j = some r) (hp : D.sys.Path Anything s seg s') :
    Used j s' ∧ Later D seg s' j r := by
  have hdated : w₀.Dated := fun j r hr => by cases (hempty j).symm.trans hr
  induction hp with
  | start => exact ⟨used_run h hempty hrow, Or.inl ⟨r, hrow, .refl r⟩⟩
  | @step seg s₁ s₂ l hp hs _ ih =>
    obtain ⟨hused, hlaterOn⟩ := ih
    refine ⟨used_step hs hused, ?_⟩
    rcases hlaterOn with ⟨r₁, hr₁, hlater⟩ | ⟨hnone, e, he, hpurge⟩
    · have hrun := h.append hp
      rcases laterThan_step hrun (dated_run hrun hdated) hs hr₁ with ⟨r₂, hr₂, hl⟩ | ⟨hgone, hpurge⟩
      · exact Or.inl ⟨r₂, hr₂, hl.trans hlater⟩
      · exact Or.inr ⟨hgone, _, List.mem_cons_self, r₁, hlater, hpurge⟩
    · exact Or.inr ⟨used_none hs hused hnone, e, List.mem_cons_of_mem _ he, hpurge⟩

/-- **The life of a row**, in every run from an empty table and along every stretch of it. Its URL
    and creation time stay, it is not PENDING again and no column of it is null again, and what
    takes it is a purge that finds it terminal and older than the retention time. -/
theorem row_life (h : D.sys.Run w₀ tr s) (hempty : ∀ j, w₀.jobs.find j = none)
    (hrow : s.world.jobs.find j = some r) (hp : D.sys.Path Anything s seg s') :
    Later D seg s' j r :=
  (later_run h hempty hrow hp).2

theorem swept_has_row : (Sample.sweptBefore.2.world.jobs.find Sample.job).isSome = true := by
  decide +kernel

/-- The row of the swept job. -/
def sweptRow : JobRow := (Sample.sweptBefore.2.world.jobs.find Sample.job).get swept_has_row

/-- The row of a swept job that a worker marks PROCESSING. -/
theorem row_life_swept : Later Sample.deployment [(Sample.sweptBefore.2, Sample.sweptLabel)]
    Sample.swept.2 Sample.job sweptRow :=
  row_life Sample.run_sweptBefore (fun _ => rfl) (Option.some_get swept_has_row).symm
    (.step .start Sample.step_swept trivial)

/-- The clock along a stretch. -/
theorem now_of_path {e : SysState × Label Op Ans PyExc TaskName}
    (hp : D.sys.Path Anything s seg s') (he : e ∈ seg) : e.1.world.now ≤ s'.world.now := by
  have hstep : ∀ {s s' : SysState} {l : Label Op Ans PyExc TaskName}, D.sys.Step s l s' →
      s.world.now ≤ s'.world.now := by
    intro s s' l hs
    cases hs with
    | call _ hsem => exact Nat.le_of_eq (now_of_sem hsem).symm
    | spawn => exact Nat.le_refl _
    | drift hd => exact now_of_drift hd
  induction hp with
  | start => cases he
  | step hp hs _ ih =>
    rcases List.mem_cons.mp he with rfl | he
    · exact hstep hs
    · exact Nat.le_trans (ih he) (hstep hs)

/-- **A row is there for the retention time after its last write.** -/
theorem row_retained (h : D.sys.Run w₀ tr s) (hempty : ∀ j, w₀.jobs.find j = none)
    (hrow : s.world.jobs.find j = some r) (hp : D.sys.Path Anything s seg s')
    (htime : s'.world.now ≤ r.updatedAt + days D.cfg.jobRetentionDays) :
    ∃ r', s'.world.jobs.find j = some r' ∧ r'.LaterThan r := by
  rcases (later_run h hempty hrow hp).2 with hthere | ⟨_, e, he, r₁, hlater, _, _, _, hold⟩
  · exact hthere
  · have hnow := now_of_path hp he
    have hupdated := hlater.updatedAt
    omega

theorem row_retained_swept :
    ∃ r', Sample.swept.2.world.jobs.find Sample.job = some r' ∧ r'.LaterThan sweptRow :=
  row_retained Sample.run_sweptBefore (fun _ => rfl) (Option.some_get swept_has_row).symm
    (.step .start Sample.step_swept trivial) (by decide +kernel)

end Steps

end InvoiceOcr
