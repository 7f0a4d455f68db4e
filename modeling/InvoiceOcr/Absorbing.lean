/-
  File:      InvoiceOcr/Absorbing.lean
  Subject:   TERMINAL ROWS. When a job that has reached a terminal status keeps it.

  A status write does not look at the row it meets; the status was read earlier, by another
  statement. So a terminal row is safe as long as nobody acts on a reading older than it:

  * `Owes` -- a task can make a status write on a job before it reads that job's status again;
  * `ClosesAlone` -- when a terminal write lands, no other task owes the job a write;
    `ReadsLive` -- no status check of a terminal job fails (the run goes on as if it were live);
  * `SweptOnce`, `nobodyOwes_step` -- STEP: then nobody owes a terminal job a write;
  * **`terminal_absorbing`** -- RUN: then no step but the purge changes status, result, error code
    or error message of a terminal row;
  * `terminal_reopened` -- without them a swept job is marked PROCESSING again.
-/
import InvoiceOcr.Protocol
import InvoiceOcr.Replay

namespace InvoiceOcr

open PyJson Async

/-! ## 1. Writes on an old reading -/

def WritesJob (j : Uuid) (o : Op) : Prop := ∃ set, o = .updateJob j set

def ReadsStatus (j : Uuid) (o : Op) : Prop := o = .selectJob j ∨ ∃ p q, o = .selectStale p q

/-- **The task owes the job a status write**: it can make one before it reads the status again. -/
def Owes (j : Uuid) (t : Task Op Ans PyExc TaskName) : Prop :=
  t.rest.Reaches (WritesJob j) (ReadsStatus j)

/-- A situation that owes the job no write. -/
def Phase.Clear (j : Uuid) : Phase → Prop
  | .live j' _ => j' ≠ j
  | .expiring j' _ => j' ≠ j
  | .yielding j' _ _ => j' ≠ j
  | .touched j' _ _ => j' ≠ j
  | .failing j' _ => j' ≠ j
  | .orphaning j' _ => j' ≠ j
  | .sweeping rows => j ∉ rows.map JobRow.jobId
  | _ => True

section Clear

variable {cfg : Settings} {j : Uuid} {p : Phase} {o : Op}

theorem clear_no_write (hc : p.Clear j) (hpre : Phase.pre cfg p o) : ¬ WritesJob j o := by
  intro hpair
  obtain ⟨set, rfl⟩ := hpair
  rcases Phase.pre_updateJob hpre with ⟨v, rfl, _⟩ | ⟨v, y, rfl, _⟩ | ⟨y, rfl, _⟩ | ⟨k, rfl, _⟩ |
    ⟨r, rs, rfl, rfl, _⟩
  · exact hc rfl
  · exact hc rfl
  · exact hc rfl
  · exact hc rfl
  · exact hc List.mem_cons_self

theorem clear_of_ofRun {j' : Uuid} {v : Json} (h : p.OfRun j' v) (hne : j' ≠ j) : p.Clear j := by
  cases p with
  | closed j'' => exact trivial
  | pushed j'' y => exact trivial
  | live j'' v' => exact fun e => hne (h.1.symm.trans e)
  | expiring j'' v' => exact fun e => hne (h.1.symm.trans e)
  | yielding j'' v' y => exact fun e => hne (h.1.symm.trans e)
  | touched j'' v' y => exact fun e => hne (h.1.symm.trans e)
  | failing j'' y => exact fun e => hne (h.symm.trans e)
  | orphaning j'' k => exact fun e => hne (h.symm.trans e)
  | _ => exact h.elim

/-- Only a status read leads out of the clear situations. -/
theorem clear_next (hc : p.Clear j) (hpre : Phase.pre cfg p o) (hread : ¬ ReadsStatus j o)
    (r : Except PyExc (Ans o)) : (Phase.next cfg p o r).Clear j := by
  have hadv := advance hpre r
  generalize Phase.next cfg p o r = q at hadv
  cases hadv with
  | @run j' v _ _ _ _ hp hq =>
    by_cases hj : j' = j
    · -- a run of the job is clear only when it has nothing left to do
      subst hj
      cases p <;> first | exact absurd hp.1 hc | exact absurd hp hc | exact hpre.elim | exact hp.elim
    · exact clear_of_ofRun hq hj
  | read => exact fun e => hread (Or.inl (e ▸ rfl))
  | readFailed => exact fun e => hread (Or.inl (e ▸ rfl))
  | selected => exact absurd (Or.inr ⟨_, _, rfl⟩) hread
  | swept => exact fun h => hc (List.mem_cons_of_mem _ h)
  | _ => exact trivial

/-- **A clear situation owes nothing.** -/
theorem not_owes_of_clear {t : Task Op Ans PyExc TaskName} {Q : Except PyExc Unit → Phase → Prop}
    (hwp : wp (monitor cfg) Q t.rest p) (hc : p.Clear j) : ¬ Owes j t :=
  not_reaches_of_wp (N := Phase.Clear j) (fun _ _ hc hpre => clear_no_write hc hpre)
    (fun _ _ r hc hpre hread => clear_next hc hpre hread r) (fun _ _ _ => trivial) hwp hc

end Clear

/-! ## 2. What a run must avoid -/

/-- No status check of a terminal job fails. -/
def ReadsLive (e : SysState × Label Op Ans PyExc TaskName) : Prop :=
  ∀ i j x r, e.2 = .call i (.selectJob j) (.error x) → e.1.world.jobs.find j = some r →
    r.status.isTerminal = false

/-- When a terminal write lands on a row, no other task owes the job a write. -/
def ClosesAlone (e : SysState × Label Op Ans PyExc TaskName) : Prop :=
  ∀ i j set a r, e.2 = .call i (.updateJob j set) (.ok a) → e.1.world.jobs.find j = some r →
    set.status.isTerminal = true →
    ∀ (k : Nat) t, k ≠ i → e.1.tasks[k]? = some t → ¬ Owes j t

/-- The rows a sweep still has to write. -/
def Phase.swept : Phase → List JobRow
  | .sweeping rows => rows
  | _ => []

/-- No sweep has a row twice. -/
def SweptOnce (ps : List Phase) : Prop := ∀ p ∈ ps, (p.swept.map JobRow.jobId).Nodup

/-- Nobody owes a terminal job a write. -/
def NobodyOwes (s : SysState) : Prop :=
  ∀ j r, s.world.jobs.find j = some r → r.status.isTerminal = true →
    ∀ (i : Nat) t, s.tasks[i]? = some t → ¬ Owes j t

section Runs

variable {D : Deployment} {w₀ w' : World} {tr : SysTrace} {s s' : SysState}
  {l : Label Op Ans PyExc TaskName} {i : Nat} {n : TaskName} {o : Op}
  {k : Except PyExc (Ans o) → Py Unit} {r : Except PyExc (Ans o)} {p : Phase} {ps : List Phase}

theorem swept_of_ofRun {j : Uuid} {v : Json} (h : p.OfRun j v) : p.swept = [] := by
  cases p <;> first | rfl | exact h.elim

theorem sweptOnce_set (h : SweptOnce ps) (hp : ps[i]? = some p) (hpre : Phase.pre D.cfg p o)
    (hsem : Sem s.world o r w') : SweptOnce (ps.set i (Phase.next D.cfg p o r)) := by
  intro q hq
  rcases List.mem_or_eq_of_mem_set hq with hq | rfl
  · exact h q hq
  · have hadv := advance hpre r
    generalize Phase.next D.cfg p o r = q at hadv
    cases hadv with
    | run _ hq => rw [swept_of_ofRun hq]; exact List.nodup_nil
    | selected =>
      obtain ⟨rfl, _⟩ := hsem
      exact s.world.jobs.unique.sublist (List.filter_sublist.map _)
    | swept => exact (List.nodup_cons.mp (h _ (List.mem_of_getElem? hp))).2
    | _ => exact List.nodup_nil

/-- The row of a job that is terminal after a call. -/
theorem terminal_before (hsem : Sem s.world o r w') (hpre : Phase.pre D.cfg p o) {j : Uuid}
    {row : JobRow} (hrow : w'.jobs.find j = some row) (hterm : row.status.isTerminal = true) :
    (∃ old, s.world.jobs.find j = some old ∧ old.status.isTerminal = true) ∨
      ∃ old set a, o = .updateJob j set ∧ HEq r (Except.ok a : Except PyExc Unit) ∧
        s.world.jobs.find j = some old ∧ set.status.isTerminal = true := by
  have hchange := rowChange_of_sem hsem j
  cases hchange with
  | same he => exact Or.inl ⟨row, he ▸ hrow, hterm⟩
  | inserted _ he =>
    have hst := (Phase.pre_insertJob hpre).1
    cases Option.some.inj (he.symm.trans hrow)
    subst hst
    cases hterm
  | @updated set he =>
    obtain ⟨old, hold, rfl⟩ := Option.map_eq_some_iff.mp (he.symm.trans hrow)
    exact Or.inr ⟨old, set, (), rfl, HEq.rfl, hold, hterm⟩
  | touched he =>
    obtain ⟨old, hold, rfl⟩ := Option.map_eq_some_iff.mp (he.symm.trans hrow)
    exact Or.inl ⟨old, hold, hterm⟩
  | purged he =>
    exact Or.inl ⟨row, (Option.filter_eq_some_iff.mp (he.symm.trans hrow)).1, hterm⟩

/-- A terminal row is not selected by a sweep. -/
theorem not_selected {w : World} {j : Uuid} {row : JobRow} {q q' : Nat}
    (hrow : w.jobs.find j = some row) (hterm : row.status.isTerminal = true) :
    j ∉ (w.jobs.select (JobRow.isStale w.now q q')).map JobRow.jobId := by
  intro hm
  obtain ⟨r, hr, rfl⟩ := List.mem_map.mp hm
  obtain ⟨hfind, hstale⟩ := Relational.Table.mem_select.mp hr
  cases Option.some.inj (hfind.symm.trans hrow)
  cases hst : row.status <;> simp_all [JobRow.isStale, JobStatus.isTerminal]

/-- Whoever makes a terminal write owes that job nothing afterwards, unless it has to yield. -/
theorem closed_clear (hone : SweptOnce ps) (hp : ps[i]? = some p) {j : Uuid} {set : JobSet}
    (hpre : Phase.pre D.cfg p (.updateJob j set)) (hset : set.status.isTerminal = true)
    (a : Unit) : (Phase.next D.cfg p (.updateJob j set) (.ok a)).Clear j := by
  rcases Phase.pre_updateJob hpre with ⟨v, rfl, _⟩ | ⟨v, y, rfl, _⟩ | ⟨y, rfl, _⟩ | ⟨k, rfl, _⟩ |
    ⟨r, rs, rfl, rfl, _⟩
  · have hne : set.status ≠ .processing := fun e => by
      rw [e] at hset
      cases hset
    show (if set.status = .processing then Phase.live j v else Phase.closed j).Clear j
    rw [if_neg hne]
    exact trivial
  · exact trivial
  · exact trivial
  · exact trivial
  · have hnd := hone _ (List.mem_of_getElem? hp)
    exact (List.nodup_cons.mp hnd).1

/-- The task that moves owes a terminal job nothing afterwards. -/
theorem mover_clear (hob : D.protocol.Obeyed tr s) (hone : SweptOnce (D.protocol.phases tr))
    (howe : NobodyOwes s) (ht : s.tasks[i]? = some ⟨n, .call o k⟩)
    (hp : (D.protocol.phases tr)[i]? = some p) (hpre : Phase.pre D.cfg p o)
    (hsem : Sem s.world o r w') (hread : ReadsLive (s, .call i o r)) {j : Uuid} {row : JobRow}
    (hrow : w'.jobs.find j = some row) (hterm : row.status.isTerminal = true) :
    ¬ Owes j ⟨n, k r⟩ := by
  have hwp : wp (monitor D.cfg) (fun _ p => p.MayEnd) (k r) (Phase.next D.cfg p o r) :=
    (hob.obeys i _ p ht hp).2 r trivial
  rcases terminal_before hsem hpre hrow hterm with ⟨old, hold, hterm⟩ | ⟨old, set, a, rfl, hr, _, hset⟩
  · -- the row was terminal: the task owed nothing, so only a status read could change that
    by_cases hrd : ReadsStatus j o
    · refine not_owes_of_clear hwp ?_
      rcases hrd with rfl | ⟨q, q', rfl⟩
      · obtain ⟨v, rfl⟩ := Phase.pre_selectJob hpre
        cases r with
        | error x => exact absurd hterm (by simp [hread i j x old rfl hold])
        | ok a =>
          obtain ⟨rfl, _⟩ := hsem
          show (Phase.checked j v (s.world.jobs.find j)).Clear j
          simp only [hold, Phase.checked, hterm, if_true]
          exact trivial
      · obtain ⟨rfl, _⟩ := Phase.pre_selectStale hpre
        cases r with
        | error x => exact trivial
        | ok rows =>
          obtain ⟨rfl, _⟩ := hsem
          exact not_selected hold hterm
    · exact fun h => howe j old hold hterm i _ ht (Proc.reaches_of_reply hrd h)
  · cases hr
    exact not_owes_of_clear hwp (closed_clear hone hp hpre hset a)

/-! ## 3. Terminal rows stay -/

/-- The columns that tell how a job ended. -/
def SameOutcome (r r' : JobRow) : Prop :=
  r'.status = r.status ∧ r'.result = r.result ∧ r'.errorCode = r.errorCode ∧
    r'.errorMessage = r.errorMessage

/-- A step leaves how a job ended alone, unless it is the retention purge. -/
def KeepsTerminal (s : SysState) (l : Label Op Ans PyExc TaskName) (s' : SysState) : Prop :=
  ∀ j r, s.world.jobs.find j = some r → r.status.isTerminal = true →
    (∃ r', s'.world.jobs.find j = some r' ∧ SameOutcome r r') ∨
      (s'.world.jobs.find j = none ∧ ∃ i p n, l = .call i (.deleteOld p) (.ok n))

/-- STEP: the invariant of the runs that avoid the two conditions. -/
theorem nobodyOwes_run (h : D.sys.Run w₀ tr s)
    (hG : ∀ e ∈ tr, ReadsLive e ∧ ClosesAlone e) :
    SweptOnce (D.protocol.phases tr) ∧ NobodyOwes s := by
  refine (D.protocol.run_invariant (G := fun s l => ReadsLive (s, l) ∧ ClosesAlone (s, l))
    (I := fun _ s ps => SweptOnce ps ∧ NobodyOwes s) ?_ ?_ ?_ ?_ h hG).2
  · exact ⟨fun p hp => (List.not_mem_nil hp).elim, fun j r _ _ i t ht => by simp at ht⟩
  · intro tr s i n o k r w' p hr hob hinv ht hp hpre hsem hg
    refine ⟨trivial, sweptOnce_set hinv.1 hp hpre hsem, fun j row hrow hterm m t hm => ?_⟩
    by_cases him : i = m
    · subst him
      have hlt := (List.getElem?_eq_some_iff.mp ht).1
      rw [List.getElem?_set_self hlt] at hm
      cases hm
      exact mover_clear hob hinv.1 hinv.2 ht hp hpre hsem hg.1 hrow hterm
    · rw [List.getElem?_set_ne him] at hm
      rcases terminal_before hsem hpre hrow hterm with ⟨old, hold, hterm⟩ |
        ⟨old, set, a, rfl, hres, hold, hset⟩
      · exact hinv.2 j old hold hterm m t hm
      · cases hres
        exact hg.2 i j set a old rfl hold hset m t (Ne.symm him) hm
  · intro tr s n hr hob hinv ha hg
    refine ⟨fun p hp => ?_, fun j row hrow hterm m t hm => ?_⟩
    · rcases List.mem_append.mp hp with hp | hp
      · exact hinv.1 p hp
      · cases List.mem_singleton.mp hp
        cases n <;> exact List.nodup_nil
    · rcases List.mem_append.mp (List.mem_of_getElem? hm) with hm' | hm'
      · obtain ⟨m', hm'⟩ := List.mem_iff_getElem?.mp hm'
        exact hinv.2 j row hrow hterm m' t hm'
      · cases List.mem_singleton.mp hm'
        refine not_owes_of_clear (D.protocol.boots n) ?_
        cases n <;> exact trivial
  · intro tr s w' hr hob hinv hd hg
    exact ⟨hinv.1, fun j row hrow => hinv.2 j row (by rw [← jobs_of_drift hd]; exact hrow)⟩

/-- **Terminal rows are absorbing**, in every run in which no status check of a terminal job fails
    and no terminal write lands while another task owes the job a write. -/
theorem terminal_absorbing (h : D.sys.Run w₀ tr s) (hs : D.sys.Step s l s')
    (hG : ∀ e ∈ tr, ReadsLive e ∧ ClosesAlone e) : KeepsTerminal s l s' := by
  intro j row hrow hterm
  have howe := (nobodyOwes_run h hG).2
  cases hs with
  | spawn ha => exact Or.inl ⟨row, hrow, rfl, rfl, rfl, rfl⟩
  | drift hd =>
    refine Or.inl ⟨row, ?_, rfl, rfl, rfl, rfl⟩
    show _ = _
    rw [jobs_of_drift hd]
    exact hrow
  | @call i n o k r w' ht hsem =>
    have hchange := rowChange_of_sem hsem j
    cases hchange with
    | same he => exact Or.inl ⟨row, he.trans hrow, rfl, rfl, rfl, rfl⟩
    | inserted he _ => cases he.symm.trans hrow
    | updated he =>
      exact absurd (Proc.reaches_head _ ⟨_, rfl⟩) (howe j row hrow hterm i _ ht)
    | touched he =>
      rw [hrow] at he
      exact Or.inl ⟨_, he, rfl, rfl, rfl, rfl⟩
    | @purged p n he =>
      rw [hrow] at he
      cases hold : row.isOld s.world.now p with
      | true =>
        rw [Option.filter_some, if_neg (by simp [hold])] at he
        exact Or.inr ⟨he, i, p, n, rfl⟩
      | false =>
        rw [Option.filter_some, if_pos (by simp [hold])] at he
        exact Or.inl ⟨row, he, rfl, rfl, rfl, rfl⟩

end Runs

/-- A check of one step that is enough for both conditions: no status check fails, and every other
    task has ended when a status write lands. -/
def closesQuietly (e : SysState × Label Op Ans PyExc TaskName) : Bool :=
  match e.2 with
  | .call _ (.selectJob _) (.error _) => false
  | .call i (.updateJob _ _) (.ok _) =>
      e.1.tasks.zipIdx.all fun t => t.2 = i || decide t.1.rest.Ended
  | _ => true

theorem not_owes_of_ended {j : Uuid} {t : Task Op Ans PyExc TaskName} (h : t.rest.Ended) :
    ¬ Owes j t := by
  unfold Owes
  cases hrest : t.rest with
  | ret a => exact id
  | raise e => exact id
  | call o k => rw [hrest] at h; exact h.elim

theorem conditions_of_closesQuietly {e : SysState × Label Op Ans PyExc TaskName}
    (h : closesQuietly e = true) : ReadsLive e ∧ ClosesAlone e := by
  obtain ⟨s, l⟩ := e
  refine ⟨fun i j x r hl _ => ?_, fun i j set a r hl _ _ k t hk ht => ?_⟩
  · cases hl
    cases h
  · cases hl
    have hmem : (t, k) ∈ s.tasks.zipIdx := List.mem_zipIdx_iff_getElem?.mpr ht
    have hall := List.all_eq_true.mp h _ hmem
    simp only [Bool.or_eq_true, decide_eq_true_eq] at hall
    exact not_owes_of_ended (hall.resolve_left hk)

namespace Sample

/-- A job nobody popped is swept; a second sweep passes it by, and a worker pops it. -/
def sweptThenPopped : List Move :=
  leftPending ++ [.spawn .sweep, .run 2, .spawn (.worker 0), .run 3]

theorem replays_sweptThenPopped :
    (deployment.replay (World.fresh 0) sweptThenPopped).isSome = true := by decide +kernel

def poppedStale : SysTrace × SysState :=
  (deployment.replay (World.fresh 0) sweptThenPopped).get replays_sweptThenPopped

theorem run_poppedStale : deployment.sys.Run (World.fresh 0) poppedStale.1 poppedStale.2 :=
  replay_get_run replays_sweptThenPopped

/-- The worker's status check of the failed row. -/
theorem moves_statusCheck : (deployment.move poppedStale.2 (.run 3)).isSome = true := by decide +kernel

def statusCheck : Label Op Ans PyExc TaskName × SysState :=
  (deployment.move poppedStale.2 (.run 3)).get moves_statusCheck

theorem step_statusCheck : deployment.sys.Step poppedStale.2 statusCheck.1 statusCheck.2 :=
  step_of_move (Option.some_get moves_statusCheck).symm

end Sample

/-- A stale job that the sweeper fails while nobody holds it is still failed after a second sweep and
    the pass of a worker that pops it. -/
theorem terminal_absorbing_stale :
    KeepsTerminal Sample.poppedStale.2 Sample.statusCheck.1 Sample.statusCheck.2 :=
  terminal_absorbing Sample.run_poppedStale Sample.step_statusCheck fun e he =>
    conditions_of_closesQuietly
      (List.all_eq_true.mp (by decide +kernel : Sample.poppedStale.1.all closesQuietly = true) e he)

/-! ## 4. A terminal row that is reopened -/

/-- The row of the job the sweeper failed while a worker held it, before and after that worker
    goes on. -/
theorem swept_rows :
    ((Sample.sweptBefore.2.world.jobs.find Sample.job).any fun r => r.status = .failedTransient) =
        true ∧
      ((Sample.swept.2.world.jobs.find Sample.job).any fun r => r.status = .processing) = true := by
  decide +kernel

theorem swept_not_kept : ¬ KeepsTerminal Sample.sweptBefore.2 Sample.sweptLabel Sample.swept.2 := by
  intro hkeep
  obtain ⟨r, hr, hrow⟩ := (Option.any_eq_true _ _).mp swept_rows.1
  obtain ⟨r', hr', hrow'⟩ := (Option.any_eq_true _ _).mp swept_rows.2
  have hst : r.status = .failedTransient := by simpa using hrow
  have hst' : r'.status = .processing := by simpa using hrow'
  rcases hkeep _ r hr (by rw [hst]; rfl) with ⟨r'', hr'', hsame, _⟩ | ⟨hnone, _⟩
  · cases Option.some.inj (hr'.symm.trans hr'')
    rw [hst, hst'] at hsame
    simp at hsame
  · cases hr'.symm.trans hnone

/-- **A terminal row is reopened**: the worker marks PROCESSING what the sweeper has failed. -/
theorem terminal_reopened :
    Sample.deployment.sys.Run (World.fresh 0) Sample.sweptBefore.1 Sample.sweptBefore.2 ∧
      Sample.deployment.sys.Step Sample.sweptBefore.2 Sample.sweptLabel Sample.swept.2 ∧
      ¬ KeepsTerminal Sample.sweptBefore.2 Sample.sweptLabel Sample.swept.2 :=
  ⟨Sample.run_sweptBefore, Sample.step_swept, swept_not_kept⟩

end InvoiceOcr
