/-
  File:      InvoiceOcr/RowStory.lean
  Subject:   WHAT A ROW TELLS. A row has a result exactly when it is SUCCEEDED, and an error code
             exactly when it is FAILED.

  * `JobRow.OneStory` -- the two equivalences; `Matches` -- a write meets a row that is still in
    flight or already of the write's own kind;
  * `oneStory_apply_iff` -- STEP: a status write keeps the story exactly when it matches. It sets
    the columns it is given and clears none;
  * **`oneStory_iff`** -- RUN: every row tells one story in every state of a run exactly when
    every status write of the run matched its row;
  * `mixed_story` -- a schedule in which one does not: a job swept while a worker holds it is
    marked PROCESSING with the sweeper's error code.
-/
import InvoiceOcr.Protocol
import InvoiceOcr.Replay

namespace InvoiceOcr

open PyJson Async

/-! ## 1. One row -/

/-- **A row that tells one story.** -/
structure JobRow.OneStory (r : JobRow) : Prop where
  result : r.result.isSome = true ↔ r.status = .succeeded
  errorCode : r.errorCode.isSome = true ↔ r.status.isFailed = true

/-- A write of status `new` meets a row of status `old` that is in flight or of the same kind. -/
def Matches (old new : JobStatus) : Prop :=
  old.isTerminal = false ∨ (old = .succeeded ∧ new = .succeeded) ∨
    (old.isFailed = true ∧ new.isFailed = true)

/-- The columns of a row after a status write, as far as the story goes. -/
theorem oneStory_apply {r : JobRow} {set : JobSet} {now : Nat} :
    ((set.apply now).run r).OneStory ↔
      ((set.result.isSome = true ∨ r.result.isSome = true) ↔ set.status = .succeeded) ∧
      ((set.errorCode.isSome = true ∨ r.errorCode.isSome = true) ↔ set.status.isFailed = true) := by
  have hres : ((set.apply now).run r).result.isSome = (set.result.isSome || r.result.isSome) := by
    cases h : set.result <;> simp [JobSet.apply, h]
  have herr : ((set.apply now).run r).errorCode.isSome =
      (set.errorCode.isSome || r.errorCode.isSome) := by
    cases h : set.errorCode <;> simp [JobSet.apply, h]
  rw [← Bool.or_eq_true, ← Bool.or_eq_true, ← hres, ← herr]
  exact ⟨fun h => ⟨h.result, h.errorCode⟩, fun h => ⟨h.1, h.2⟩⟩

/-- **A status write keeps the story exactly when it matches the row.** -/
theorem oneStory_apply_iff {r : JobRow} {set : JobSet} {now : Nat} (hr : r.OneStory)
    (hset : set.IsMark ∨ set.IsSuccess ∨ set.IsFailure) :
    ((set.apply now).run r).OneStory ↔ Matches r.status set.status := by
  rw [oneStory_apply, hr.result, hr.errorCode]
  rcases hset with hm | hs | hf
  · rw [hm.result, hm.errorCode, hm.status]
    cases r.status <;> simp [Matches, JobStatus.isTerminal, JobStatus.isFailed]
  · rw [hs.errorCode, hs.status]
    cases r.status <;> simp [hs.result, Matches, JobStatus.isTerminal, JobStatus.isFailed]
  · have hne : set.status ≠ .succeeded := fun h => by
      have hfailed := hf.status
      rw [h] at hfailed
      cases hfailed
    unfold Matches
    rw [hf.result, hf.status]
    cases r.status <;> simp [hf.errorCode, hne, JobStatus.isTerminal, JobStatus.isFailed]

/-! ## 2. Runs -/

/-- Every row of the table tells one story. -/
def World.OneStory (w : World) : Prop := ∀ j r, w.jobs.find j = some r → r.OneStory

/-- A step that is a status write matches the row it meets. -/
def MatchingWrite (e : SysState × Label Op Ans PyExc TaskName) : Prop :=
  ∀ i j set a r, e.2 = .call i (.updateJob j set) (.ok a) → e.1.world.jobs.find j = some r →
    Matches r.status set.status

variable {D : Deployment} {w₀ : World} {tr : SysTrace} {s s' : SysState}
  {l : Label Op Ans PyExc TaskName}

/-- STEP: from a state in which every row tells one story, the next one is such a state exactly
    when the step is a matching write or no status write. -/
theorem oneStory_step (h : D.sys.Run w₀ tr s) (hs : D.sys.Step s l s')
    (hone : s.world.OneStory) : s'.world.OneStory ↔ MatchingWrite (s, l) := by
  have hob := D.protocol.obeyed_of_run (fun _ _ _ => trivial) h
  cases hs with
  | spawn ha => exact ⟨fun _ i j set a r hl => (by simp at hl), fun _ => hone⟩
  | drift hd =>
    refine ⟨fun _ i j set a r hl => (by simp at hl), fun _ j r hr => hone j r ?_⟩
    rw [← jobs_of_drift hd]
    exact hr
  | @call i n o k r w' ht hsem =>
    obtain ⟨p, _, hpre⟩ := hob.permitted ht
    constructor
    · intro hone' i' j set a row hl hrow
      cases hl
      have hkind := Phase.updateJob_kind (show Phase.pre D.cfg p (.updateJob j set) from hpre)
      obtain ⟨t, htab, rfl⟩ := hsem
      have hfind := Relational.Table.find_modify htab j
      rw [if_pos rfl, hrow] at hfind
      exact (oneStory_apply_iff (hone j row hrow) hkind).mp (hone' j _ hfind)
    · intro hmatch j row hrow
      have hchange := rowChange_of_sem hsem j
      cases hchange with
      | same he => exact hone j row (he ▸ hrow)
      | inserted _ he =>
        have hst := (Phase.pre_insertJob (show Phase.pre D.cfg p (.insertJob _ _ _) from hpre)).1
        cases Option.some.inj (he.symm.trans hrow)
        subst hst
        exact ⟨⟨nofun, nofun⟩, ⟨nofun, nofun⟩⟩
      | @updated set he =>
        have hkind := Phase.updateJob_kind (show Phase.pre D.cfg p (.updateJob j set) from hpre)
        obtain ⟨old, hold, rfl⟩ := Option.map_eq_some_iff.mp (he.symm.trans hrow)
        exact (oneStory_apply_iff (hone j old hold) hkind).mpr
          (hmatch i j set () old rfl hold)
      | touched he =>
        obtain ⟨old, hold, rfl⟩ := Option.map_eq_some_iff.mp (he.symm.trans hrow)
        exact ⟨(hone j old hold).result, (hone j old hold).errorCode⟩
      | purged he =>
        have hfilter := he.symm.trans hrow
        exact hone j row (Option.filter_eq_some_iff.mp hfilter).1

/-- **Rows tell one story throughout a run exactly when every status write of the run met a row
    that was still in flight or already of its own kind.** -/
theorem oneStory_iff (h : D.sys.Run w₀ tr s) (h₀ : w₀.OneStory) :
    ((∀ e ∈ tr, e.1.world.OneStory) ∧ s.world.OneStory) ↔ ∀ e ∈ tr, MatchingWrite e := by
  induction h with
  | start => exact ⟨fun _ e he => (List.not_mem_nil he).elim, fun _ => ⟨fun e he =>
      (List.not_mem_nil he).elim, h₀⟩⟩
  | @step tr s s' l hr hs ih =>
    simp only [List.forall_mem_cons]
    constructor
    · intro ⟨⟨hone, htr⟩, hone'⟩
      exact ⟨(oneStory_step hr hs hone).mp hone', ih.mp ⟨htr, hone⟩⟩
    · intro ⟨hmatch, htr⟩
      obtain ⟨hall, hone⟩ := ih.mpr htr
      exact ⟨⟨hone, hall⟩, (oneStory_step hr hs hone).mpr hmatch⟩

theorem oneStory_fresh (now : Nat) : (World.fresh now).OneStory := fun _ _ h => by cases h

/-- The row of the job swept while a worker held it: PROCESSING, with an error code. -/
theorem swept_row : (Sample.swept.2.world.jobs.find Sample.job).any
    (fun r => r.status = .processing && r.errorCode.isSome) = true := by decide +kernel

theorem swept_not_oneStory : ¬ Sample.swept.2.world.OneStory := fun hone => by
  obtain ⟨r, hr, hrow⟩ := (Option.any_eq_true _ _).mp swept_row
  simp only [Bool.and_eq_true, decide_eq_true_eq] at hrow
  have hfailed := (hone _ _ hr).errorCode.mp hrow.2
  rw [hrow.1] at hfailed
  cases hfailed

/-- **A row that tells two stories**: a run that leaves a row without error status an error code. -/
theorem mixed_story :
    Sample.deployment.sys.Run (World.fresh 0) Sample.swept.1 Sample.swept.2 ∧
      ¬ Sample.swept.2.world.OneStory :=
  ⟨Sample.run_swept, swept_not_oneStory⟩

/-- In that run some status write did not match its row. -/
theorem swept_mismatch : ¬ ∀ e ∈ Sample.swept.1, MatchingWrite e := fun h =>
  swept_not_oneStory ((oneStory_iff Sample.run_swept (oneStory_fresh 0)).mpr h).2

end InvoiceOcr
