/-
  File:      InvoiceOcr/Sweep.lean
  Subject:   WHAT ONE SWEEP COUNTS (src/worker/sweeper.py, `_sweep_once`). The metric
             `stale_jobs_recovered_total` is incremented where the count is.

  * `Attempts` -- a status update for every selected row, in order, whatever became of the others;
  * `movedRows` -- how many of the selected rows are FAILED_TRANSIENT afterwards;
  * `sweepRows_run` -- the loop attempts every row, counts every attempt, and moves as many rows as
    Postgres takes updates of;
  * **`sweep_exact_iff`** -- so the count is the number of moved rows exactly when no update is refused;
  * **`sweep_overcounts`** -- with Postgres refusing the update the sweep reports a recovered job.
-/
import InvoiceOcr.Submission

namespace InvoiceOcr

open PyJson Async

/-! ## 1. What a sweep does -/

/-- The rows `select_stale_jobs` selects. -/
def staleRows (cfg : Settings) (w : World) : List JobRow :=
  w.jobs.select (JobRow.isStale w.now (minutes cfg.staleProcessingMinutes)
    (minutes cfg.stalePendingMinutes))

/-- The status in the row of a job. -/
def rowStatus (j : Uuid) (w : World) : Option JobStatus := (w.jobs.find j).map (·.status)

/-- How many of the rows are FAILED_TRANSIENT. -/
def movedRows (rows : List JobRow) (w : World) : Nat :=
  rows.countP fun r => rowStatus r.jobId w = some .failedTransient

/-- The call is the status update of the row. -/
def Attempt (r : JobRow) (ev : Event Op Ans PyExc) : Prop := ev.op = .updateJob r.jobId (staleSet r)

/-- The sweep selects, then attempts every row. -/
def Attempts (rows : List JobRow) (es : List (Event Op Ans PyExc)) : Prop :=
  ∃ ev evs, es = ev :: evs ∧ List.Forall₂ Attempt rows evs

/-- Postgres refuses no status update. -/
def UpdatesAccepted (es : List (Event Op Ans PyExc)) : Prop :=
  ∀ j set e, (⟨.updateJob j set, .error e⟩ : Event Op Ans PyExc) ∉ es

/-- The call was answered without an exception. -/
def isReplied (ev : Event Op Ans PyExc) : Bool :=
  match ev.reply with
  | .ok _ => true
  | .error _ => false

/-- Postgres answered the select, the first call of a sweep. -/
def SelectAnswered (es : List (Event Op Ans PyExc)) : Prop :=
  ∃ ev evs, es = ev :: evs ∧ isReplied ev = true

section Steps

variable {w w' : World} {es : List (Event Op Ans PyExc)} {x : Except PyExc Nat} {rows : List JobRow}

/-- `_fail` makes one update and never raises. -/
theorem exec_fail {j : Uuid} {isPermanent : Bool} {errorCode errorMessage : Str} {y : Except PyExc Unit}
    (h : Exec Sem (fail j isPermanent errorCode errorMessage) w es y w') :
    ∃ r, Sem w (.updateJob j (failSet isPermanent errorCode errorMessage)) r w' ∧
      es = [⟨.updateJob j (failSet isPermanent errorCode errorMessage), r⟩] ∧ y = .ok () := by
  obtain ⟨es₁, w₁, es₂, rfl, ⟨a, hp, hy⟩ | ⟨e, hp, hy⟩⟩ := (exec_tryElse _ _ _ y).mp h
  all_goals
    obtain ⟨r, hsem, rfl, -⟩ := (exec_mapped (Op.updateJob _ _) _ _).mp hp
    obtain ⟨rfl, rfl, rfl⟩ := (exec_ret _ y).mp hy
    exact ⟨r, hsem, rfl, rfl⟩

/-- STEP: the row of the update, and every other one. -/
theorem status_of_update {j : Uuid} {set : JobSet} {reply : Except PyExc Unit}
    (h : Sem w (.updateJob j set) reply w') : (∀ k ≠ j, w'.jobs.find k = w.jobs.find k) ∧
      ∀ status, rowStatus j w = some status → rowStatus j w' =
        some (if isReplied ⟨.updateJob j set, reply⟩ then set.status else status) := by
  cases reply with
  | error e =>
    rw [show w' = w from h]
    exact ⟨fun _ _ => rfl, fun _ hs => hs⟩
  | ok a =>
    obtain ⟨t, ht, rfl⟩ := h
    refine ⟨fun k hk => ?_, fun status hs => ?_⟩
    · rw [Relational.Table.find_modify ht, if_neg hk]
    · obtain ⟨row, hrow, -⟩ := Option.map_eq_some_iff.mp hs
      unfold rowStatus
      rw [Relational.Table.find_modify ht, if_pos rfl, hrow]
      rfl

/-- STEP: one row, whose update is counted whatever its reply. -/
theorem sweepRows_cons {r : JobRow} {c : Nat} (h : Exec Sem (sweepRows (r :: rows) c) w es x w') :
    ∃ w₁ es₂ reply, es = ⟨.updateJob r.jobId (staleSet r), reply⟩ :: es₂ ∧
      Sem w (.updateJob r.jobId (staleSet r)) reply w₁ ∧
      Exec Sem (sweepRows rows (c + 1)) w₁ es₂ x w' := by
  obtain ⟨es₁, w₁, es₂, rfl, ⟨a, hp, hx⟩ | ⟨e, hp, hx⟩⟩ := (exec_tryElse _ _ _ x).mp h
  · obtain ⟨reply, hsem, rfl, -⟩ := exec_fail hp
    exact ⟨w₁, es₂, reply, rfl, hsem, hx⟩
  · -- `_fail` does not raise
    obtain ⟨_, _, _, hnever⟩ := exec_fail hp
    cases hnever

/-- **RUN: the loop over the selected rows.** -/
theorem sweepRows_run {c : Nat} (hunique : (rows.map (·.jobId)).Nodup)
    (hlive : ∀ r ∈ rows, ∃ status, rowStatus r.jobId w = some status ∧ status ≠ .failedTransient)
    (h : Exec Sem (sweepRows rows c) w es x w') :
    x = .ok (c + rows.length) ∧ List.Forall₂ Attempt rows es ∧
      movedRows rows w' = es.countP isReplied ∧
      ∀ j ∉ rows.map (·.jobId), w'.jobs.find j = w.jobs.find j := by
  induction rows generalizing w es c with
  | nil =>
    obtain ⟨rfl, rfl, rfl⟩ := (exec_ret _ x).mp h
    exact ⟨rfl, .nil, rfl, fun _ _ => rfl⟩
  | cons r rows ih =>
    obtain ⟨hfresh, hunique⟩ := List.nodup_cons.mp hunique
    obtain ⟨w₁, es₂, reply, rfl, hsem, hx⟩ := sweepRows_cons h
    obtain ⟨hothers, hown⟩ := status_of_update hsem
    have hlive' : ∀ r' ∈ rows, ∃ status, rowStatus r'.jobId w₁ = some status ∧
        status ≠ .failedTransient := by
      intro r' hr'
      have hne : r'.jobId ≠ r.jobId := fun heq => hfresh (List.mem_map.mpr ⟨r', hr', heq⟩)
      unfold rowStatus
      rw [hothers _ hne]
      exact hlive r' (List.mem_cons_of_mem r hr')
    obtain ⟨hcount, hattempts, hmoved, hkept⟩ := ih hunique hlive' hx
    refine ⟨?_, .cons rfl hattempts, ?_, fun j hj => ?_⟩
    · rw [hcount, List.length_cons]
      congr 1
      omega
    · obtain ⟨status, hstatus, hne⟩ := hlive r List.mem_cons_self
      have hrow : (rowStatus r.jobId w' = some .failedTransient) ↔
          isReplied ⟨.updateJob r.jobId (staleSet r), reply⟩ = true := by
        have hlast : rowStatus r.jobId w' = rowStatus r.jobId w₁ :=
          congrArg (Option.map _) (hkept _ hfresh)
        rw [hlast, hown status hstatus]
        split
        · next hok => exact iff_of_true rfl hok
        · next hno => exact iff_of_false (fun heq => hne (Option.some.inj heq)) hno
      show (r :: rows).countP _ = _
      rw [List.countP_cons, List.countP_cons]
      exact congrArg₂ (· + ·) hmoved (if_congr (decide_eq_true_iff.trans hrow) rfl rfl)
    · rw [List.map_cons, List.mem_cons, not_or] at hj
      rw [hkept j hj.2, hothers j hj.1]

end Steps

/-! ## 2. One sweep -/

section Sweeps

variable {cfg : Settings} {w w' : World} {es : List (Event Op Ans PyExc)} {x : Except PyExc Nat}

/-- A selected row is there, and not failed. -/
theorem live_of_stale {r : JobRow} (h : r ∈ staleRows cfg w) :
    ∃ status, rowStatus r.jobId w = some status ∧ status ≠ .failedTransient := by
  obtain ⟨hfind, hstale⟩ := Relational.Table.mem_select.mp h
  refine ⟨r.status, congrArg (Option.map _) hfind, fun hfailed => ?_⟩
  unfold JobRow.isStale at hstale
  rw [hfailed] at hstale
  simp at hstale

/-- What a sweep has done: its select was refused, or it has gone over all rows. -/
theorem sweepOnce_run (h : Exec Sem (sweepOnce cfg) w es x w') :
    (∃ ev e, es = [ev] ∧ isReplied ev = false ∧ x = .error e) ∨
    ∃ ev evs, es = ev :: evs ∧ isReplied ev = true ∧ List.Forall₂ Attempt (staleRows cfg w) evs ∧
      x = .ok evs.length ∧ movedRows (staleRows cfg w) w' = evs.countP isReplied := by
  rcases (exec_bind _ _ _).mp h with ⟨es₁, w₁, evs, rows, rfl, hp, hx⟩ | ⟨e, hp, rfl⟩
  · obtain ⟨reply, hsem, rfl, hreply⟩ := (exec_mapped (Op.selectStale _ _) _ _).mp hp
    cases reply with
    | error e => cases hreply
    | ok a =>
      cases hreply
      obtain ⟨rfl, rfl⟩ := hsem
      have hunique : ((staleRows cfg w₁).map (·.jobId)).Nodup :=
        w₁.jobs.unique.sublist (List.filter_sublist.map _)
      obtain ⟨hn, hattempts, hmoved, -⟩ := sweepRows_run hunique (fun r hr => live_of_stale hr) hx
      refine Or.inr ⟨_, evs, rfl, rfl, hattempts, ?_, hmoved⟩
      rw [hn, Nat.zero_add, hattempts.length_eq]
  · obtain ⟨reply, hsem, rfl, hreply⟩ := (exec_mapped (Op.selectStale _ _) _ _).mp hp
    cases reply with
    | error e' => exact Or.inl ⟨_, e, rfl, rfl, rfl⟩
    | ok a => cases hreply

/-- The events of the loop are status updates. -/
theorem attempt_of_mem {rows : List JobRow} {evs : List (Event Op Ans PyExc)}
    (h : List.Forall₂ Attempt rows evs) : ∀ ev ∈ evs, ∃ r, Attempt r ev := by
  induction h with
  | nil => exact fun ev hev => absurd hev List.not_mem_nil
  | @cons r ev _ _ hattempt _ ih =>
    intro ev' hev'
    rcases List.mem_cons.mp hev' with rfl | hev'
    · exact ⟨r, hattempt⟩
    · exact ih ev' hev'

/-- An update of an attempt is refused, or the attempt was answered. -/
theorem updatesAccepted_iff {rows : List JobRow} {ev : Event Op Ans PyExc}
    {evs : List (Event Op Ans PyExc)} (hev : isReplied ev = true)
    (hattempts : List.Forall₂ Attempt rows evs) :
    UpdatesAccepted (ev :: evs) ↔ ∀ ev ∈ evs, isReplied ev = true := by
  constructor
  · intro haccepted ev' hev'
    obtain ⟨r, hattempt⟩ := attempt_of_mem hattempts ev' hev'
    obtain ⟨op, reply⟩ := ev'
    cases hattempt
    cases reply with
    | ok a => rfl
    | error e => exact absurd (List.mem_cons_of_mem ev hev') (haccepted _ _ e)
  · intro hall j set e hmem
    rcases List.mem_cons.mp hmem with rfl | hmem
    · cases hev
    · cases hall _ hmem

/-- **One sweep accounts exactly for what it did when Postgres refuses no update**, and only then: a
    sweep returns a count if and only if its select is answered; it has then attempted every selected
    row, whatever was refused, and the count is the number of rows it moved to FAILED_TRANSIENT exactly
    when no update was. -/
theorem sweep_exact_iff (h : Exec Sem (sweepOnce cfg) w es x w') :
    ((∃ n, x = .ok n) ↔ SelectAnswered es) ∧
    (SelectAnswered es → Attempts (staleRows cfg w) es ∧
      (x = .ok (movedRows (staleRows cfg w) w') ↔ UpdatesAccepted es)) := by
  rcases sweepOnce_run h with ⟨ev, e, rfl, hev, rfl⟩ | ⟨ev, evs, rfl, hev, hattempts, rfl, hmoved⟩
  · have hrefused : ¬ SelectAnswered [ev] := by
      rintro ⟨ev', evs, heq, hreplied⟩
      cases heq
      rw [hev] at hreplied
      cases hreplied
    exact ⟨iff_of_false nofun hrefused, fun hanswered => absurd hanswered hrefused⟩
  · refine ⟨iff_of_true ⟨_, rfl⟩ ⟨ev, evs, rfl, hev⟩, fun _ => ⟨⟨ev, evs, rfl, hattempts⟩, ?_⟩⟩
    rw [updatesAccepted_iff hev hattempts, hmoved, Except.ok.injEq, eq_comm, List.countP_eq_length]

end Sweeps

/-! ## 3. Concrete sweeps -/

namespace Sample

/-- The submitted job, an hour later. -/
def forgotten : World := { (submitted fun _ => none).2 with now := 3600000000 }

def sweep (faults : Op → Option PyExc) : List (Event Op Ans PyExc) × Except PyExc Nat × World :=
  ((sweepOnce {}).events (World.answer faults fun _ => .error (.exception [])) forgotten,
    (sweepOnce {}).interp (World.answer faults fun _ => .error (.exception [])) forgotten)

theorem exec_sweep (faults : Op → Option PyExc) :
    Exec Sem (sweepOnce {}) forgotten (sweep faults).1 (sweep faults).2.1 (sweep faults).2.2 :=
  exec_events _ (answer_sem faults _) (sweepOnce {}) forgotten

/-- Postgres refuses every update. -/
def updatesRefused : Op → Option PyExc
  | .updateJob _ _ => some (.interfaceError "connection is closed".toList)
  | _ => none

def isRefusedUpdate : Event Op Ans PyExc → Bool
  | ⟨.updateJob _ _, .error _⟩ => true
  | _ => false

theorem updates_accepted : UpdatesAccepted (sweep fun _ => none).1 := by
  intro j set e hmem
  have hnone : (sweep fun _ => none).1.any isRefusedUpdate = false := by decide +kernel
  exact absurd (List.any_eq_false.mp hnone _ hmem) (by simp [isRefusedUpdate])

end Sample

/-- A sweep with Postgres up recovers the forgotten job. -/
theorem sweep_exact_healthy :
    Attempts (staleRows {} Sample.forgotten) (Sample.sweep fun _ => none).1 ∧
      (Sample.sweep fun _ => none).2.1 =
        .ok (movedRows (staleRows {} Sample.forgotten) (Sample.sweep fun _ => none).2.2) := by
  have hexact := sweep_exact_iff (Sample.exec_sweep fun _ => none)
  have hanswered := hexact.2 (hexact.1.mp ⟨1, rfl⟩)
  exact ⟨hanswered.1, hanswered.2.mpr Sample.updates_accepted⟩

/-- **A sweep that overcounts**: Postgres refuses the update, the row stays PENDING, and the sweep
    returns one. -/
theorem sweep_overcounts : ∃ es,
    Exec Sem (sweepOnce {}) Sample.forgotten es (.ok 1) (Sample.sweep Sample.updatesRefused).2.2 ∧
      rowStatus Sample.job (Sample.sweep Sample.updatesRefused).2.2 = some .pending ∧
      movedRows (staleRows {} Sample.forgotten) (Sample.sweep Sample.updatesRefused).2.2 = 0 :=
  ⟨_, Sample.exec_sweep Sample.updatesRefused, by decide +kernel, by decide +kernel⟩

end InvoiceOcr
