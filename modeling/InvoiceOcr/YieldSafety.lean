/-
  File:      InvoiceOcr/YieldSafety.lean
  Subject:   THE SWEEPER AND A YIELDED JOB. A yield touches `updated_at` and then pushes; when that
             keeps the job out of the sweeper.

  * `yieldTimes`, `writeTimes` -- when the job was handed back, and when its row was written;
  * `SafeStep` -- no sweep selects or writes a job that was handed back a short time ago;
  * `Calm` -- the three conditions: the job is not overdue as a PENDING one, its row was written
    in the window, no sweep that has selected it is under way when the push lands;
  * **`yield_safe`** -- RUN: then every step is safe;
  * `yield_swept` -- the touch does not help a PENDING row, which is aged by `created_at`.
-/
import InvoiceOcr.Absorbing

namespace InvoiceOcr

open PyJson Async

/-! ## 1. What a trace shows of a job -/

def isTouch (i : Nat) (j : Uuid) : Label Op Ans PyExc TaskName → Bool
  | .call i' (.touchJob j') (.ok _) => i' = i && j' = j
  | _ => false

/-- The step is a push of a run that has touched the job: the end of a yield. -/
def handsBack (j : Uuid) (tr : SysTrace) : Label Op Ans PyExc TaskName → Bool
  | .call i (.lpush _) (.ok _) => tr.any fun e => isTouch i j e.2
  | _ => false

/-- When the job was handed back. -/
def yieldTimes (j : Uuid) : SysTrace → List Nat
  | [] => []
  | (s, l) :: tr =>
    if handsBack j tr l then s.world.now :: yieldTimes j tr else yieldTimes j tr

def isWrite (j : Uuid) : Label Op Ans PyExc TaskName → Bool
  | .call _ (.touchJob j') (.ok _) => j' = j
  | .call _ (.updateJob j' _) (.ok _) => j' = j
  | _ => false

/-- When a touch or a status write of the job took effect. -/
def writeTimes (j : Uuid) (tr : SysTrace) : List Nat :=
  (tr.filter fun e => isWrite j e.2).map fun e => e.1.world.now

/-- The shorter of the two stale windows. -/
def window (cfg : Settings) : Nat :=
  min (minutes cfg.staleProcessingMinutes) (minutes cfg.stalePendingMinutes)

/-- The last yield of the job is less than the window ago. -/
def Recent (cfg : Settings) (tr : SysTrace) (j : Uuid) (now : Nat) : Prop :=
  ∃ T ∈ yieldTimes j tr, now < T + window cfg

/-- The step is a select of the sweeper that answers the job's row. -/
def selects (j : Uuid) : Label Op Ans PyExc TaskName → Bool
  | .call _ (.selectStale _ _) (.ok rows) => rows.any fun r => r.jobId = j
  | _ => false

/-- The step is a write of the sweeper on the job. -/
def sweeps (j : Uuid) (s : SysState) : Label Op Ans PyExc TaskName → Bool
  | .call i (.updateJob j' _) (.ok _) => j' = j && s.tasks[i]?.any fun t => t.name = .sweep
  | _ => false

/-- **A safe step**: the sweeper leaves the jobs alone that were handed back recently. -/
def SafeStep (cfg : Settings) (tr : SysTrace) (s : SysState) (l : Label Op Ans PyExc TaskName) :
    Prop :=
  ∀ j, Recent cfg tr j s.world.now → selects j l = false ∧ sweeps j s l = false

/-- **The conditions on a step.** -/
structure Calm (cfg : Settings) (tr : SysTrace) (s : SysState)
    (l : Label Op Ans PyExc TaskName) : Prop where
  /-- When the sweeper selects, no job handed back recently is PENDING beyond its window. -/
  pending : ∀ i p q rows, l = .call i (.selectStale p q) (.ok rows) → ∀ j row,
    s.world.jobs.find j = some row → Recent cfg tr j s.world.now → row.status = .pending →
    s.world.now ≤ row.createdAt + minutes cfg.stalePendingMinutes
  /-- When it selects, the row of such a job in PROCESSING has been written in the window. -/
  written : ∀ i p q rows, l = .call i (.selectStale p q) (.ok rows) → ∀ j row,
    s.world.jobs.find j = some row → Recent cfg tr j s.world.now → row.status = .processing →
    ∃ T ∈ writeTimes j tr, s.world.now ≤ T + minutes cfg.staleProcessingMinutes
  /-- When the push of a yield lands, no sweep still has to write the job. -/
  unswept : ∀ j, handsBack j tr l = true → ∀ (k : Nat) t, s.tasks[k]? = some t →
    t.name = .sweep → ¬ Owes j t

/-- The situations of a sweep. -/
def Phase.OfSweep : Phase → Prop
  | .sweepReady => True
  | .sweeping _ => True
  | .ended => True
  | _ => False

/-! ## 2. The invariant -/

/-- **What the sweeper knows of handed back jobs is old.** -/
structure Quiet (cfg : Settings) (tr : SysTrace) (s : SysState) (ps : List Phase) : Prop where
  past : ∀ j, ∀ T ∈ writeTimes j tr, T ≤ s.world.now
  stamped : ∀ j row, s.world.jobs.find j = some row → ∀ T ∈ writeTimes j tr, T ≤ row.updatedAt
  ofSweep : ∀ (k : Nat) t p, s.tasks[k]? = some t → t.name = .sweep → ps[k]? = some p → p.OfSweep
  unowed : ∀ j (k : Nat) t, s.tasks[k]? = some t → t.name = .sweep → Owes j t →
    ∀ T ∈ yieldTimes j tr, T + window cfg ≤ s.world.now

section Steps

variable {D : Deployment} {w₀ w' : World} {tr : SysTrace} {s s' : SysState}
  {l : Label Op Ans PyExc TaskName} {i : Nat} {n : TaskName} {o : Op}
  {k : Except PyExc (Ans o) → Py Unit} {r : Except PyExc (Ans o)} {p : Phase} {ps : List Phase}
  {j : Uuid}

theorem mem_writeTimes {T : Nat} (h : T ∈ writeTimes j ((s, l) :: tr)) :
    (isWrite j l = true ∧ T = s.world.now) ∨ T ∈ writeTimes j tr := by
  unfold writeTimes at h
  rw [List.filter_cons] at h
  split at h
  · next hl =>
    rcases List.mem_cons.mp h with rfl | h
    · exact Or.inl ⟨hl, rfl⟩
    · exact Or.inr h
  · exact Or.inr h

theorem mem_yieldTimes {T : Nat} (h : T ∈ yieldTimes j ((s, l) :: tr)) :
    (handsBack j tr l = true ∧ T = s.world.now) ∨ T ∈ yieldTimes j tr := by
  unfold yieldTimes at h
  split at h
  · next hl =>
    rcases List.mem_cons.mp h with rfl | h
    · exact Or.inl ⟨hl, rfl⟩
    · exact Or.inr h
  · exact Or.inr h

/-- A write of the job, as a call. -/
theorem call_of_isWrite (h : isWrite j l = true) : ∃ i o a, l = .call i o (.ok a) ∧
    (o = .touchJob j ∨ ∃ set, o = .updateJob j set) := by
  unfold isWrite at h
  split at h
  · next i j' a =>
    have hj : j' = j := by simpa using h
    exact ⟨i, .touchJob j', a, rfl, Or.inl (by rw [hj])⟩
  · next i j' set a =>
    have hj : j' = j := by simpa using h
    exact ⟨i, .updateJob j' set, a, rfl, Or.inr ⟨set, by rw [hj]⟩⟩
  · simp at h

theorem ofSweep_next (h : p.OfSweep) (hpre : Phase.pre D.cfg p o) :
    (Phase.next D.cfg p o r).OfSweep := by
  have hadv := advance hpre r
  generalize Phase.next D.cfg p o r = q at hadv
  cases hadv with
  | run hp => cases p <;> first | exact h.elim | exact hp.elim
  | _ => first | exact h.elim | exact trivial

/-- A sweep never ends a yield. -/
theorem not_handsBack (h : p.OfSweep) (hpre : Phase.pre D.cfg p o) :
    handsBack j tr (.call i o r) = false := by
  cases o with
  | lpush m =>
    rcases Phase.pre_lpush hpre with ⟨j', v, y, rfl, _⟩ | ⟨j', u, rfl, _⟩
    · exact h.elim
    · exact h.elim
  | _ => rfl

/-- **A recently handed back job is not stale**, under the conditions. -/
theorem not_stale (hq : Quiet D.cfg tr s ps) {a b : Nat} {rows : List JobRow}
    (hc : Calm D.cfg tr s (.call i (.selectStale a b) (.ok rows))) {row : JobRow}
    (hrow : s.world.jobs.find j = some row) (hrec : Recent D.cfg tr j s.world.now) :
    row.isStale s.world.now (minutes D.cfg.staleProcessingMinutes)
      (minutes D.cfg.stalePendingMinutes) = false := by
  have hpend := hc.pending i a b rows rfl j row hrow hrec
  have hproc := hc.written i a b rows rfl j row hrow hrec
  unfold JobRow.isStale
  cases hst : row.status with
  | pending =>
    have hle := hpend hst
    simp only [Bool.or_eq_false_iff, Bool.and_eq_false_iff, decide_eq_false_iff_not]
    exact ⟨Or.inl (by simp), Or.inr (by omega)⟩
  | processing =>
    obtain ⟨T, hT, hle⟩ := hproc hst
    have hstamp := hq.stamped j row hrow T hT
    simp only [Bool.or_eq_false_iff, Bool.and_eq_false_iff, decide_eq_false_iff_not]
    exact ⟨Or.inr (by omega), Or.inl (by simp)⟩
  | _ => simp

/-- STEP: the rows carry the time of their last write. -/
theorem stamped_call (hq : Quiet D.cfg tr s ps) (hsem : Sem s.world o r w') {row : JobRow}
    (hrow : w'.jobs.find j = some row) {T : Nat}
    (hT : T ∈ writeTimes j ((s, .call i o r) :: tr)) : T ≤ row.updatedAt := by
  rcases mem_writeTimes hT with ⟨hw, rfl⟩ | hT
  · obtain ⟨i', o', a, he, ho⟩ := call_of_isWrite hw
    cases he
    rw [updatedAt_of_write hsem ho hrow]
  · have hpast := hq.past j T hT
    have hchange := rowChange_of_sem hsem j
    cases hchange with
    | same he => exact hq.stamped j row (he ▸ hrow) T hT
    | inserted _ he =>
      cases Option.some.inj (he.symm.trans hrow)
      exact hpast
    | updated he =>
      obtain ⟨old, _, rfl⟩ := Option.map_eq_some_iff.mp (he.symm.trans hrow)
      exact hpast
    | touched he =>
      obtain ⟨old, _, rfl⟩ := Option.map_eq_some_iff.mp (he.symm.trans hrow)
      exact hpast
    | purged he => exact hq.stamped j row (Option.filter_eq_some_iff.mp (he.symm.trans hrow)).1 T hT

/-- STEP: the sweep that moves owes a write only to jobs handed back long ago. -/
theorem unowed_mover (hob : D.protocol.Obeyed tr s) (hq : Quiet D.cfg tr s (D.protocol.phases tr))
    (ht : s.tasks[i]? = some ⟨.sweep, .call o k⟩) (hp : (D.protocol.phases tr)[i]? = some p)
    (hpre : Phase.pre D.cfg p o) (hsem : Sem s.world o r w')
    (hc : Calm D.cfg tr s (.call i o r)) (howes : Owes j ⟨.sweep, k r⟩) {T : Nat}
    (hT : T ∈ yieldTimes j tr) : T + window D.cfg ≤ s.world.now := by
  have hsweep := hq.ofSweep i _ p ht rfl hp
  have hwp : wp (monitor D.cfg) (fun _ p => p.MayEnd) (k r) (Phase.next D.cfg p o r) :=
    (hob.obeys i _ p ht hp).2 r trivial
  by_cases hrd : ReadsStatus j o
  · rcases hrd with rfl | ⟨a, b, rfl⟩
    · obtain ⟨v, rfl⟩ := Phase.pre_selectJob hpre
      exact hsweep.elim
    · obtain ⟨rfl, rfl, rfl⟩ := Phase.pre_selectStale hpre
      cases r with
      | error x => exact absurd howes (not_owes_of_clear hwp trivial)
      | ok rows =>
        -- it owes the job a write only if it selected it, and then no yield is recent
        by_cases hmem : j ∈ rows.map JobRow.jobId
        · obtain ⟨row, hrow, rfl⟩ := List.mem_map.mp hmem
          obtain ⟨rfl, _⟩ := hsem
          obtain ⟨hfind, hstale⟩ := Relational.Table.mem_select.mp hrow
          refine Nat.not_lt.mp fun hlt => ?_
          have hfresh := not_stale hq hc hfind ⟨T, hT, hlt⟩
          rw [hstale] at hfresh
          simp at hfresh
        · exact absurd howes (not_owes_of_clear hwp hmem)
  · exact hq.unowed j i _ ht rfl (Proc.reaches_of_reply hrd howes) T hT

/-- STEP: a call keeps the invariant. -/
theorem quiet_call (hob : D.protocol.Obeyed tr s) (hq : Quiet D.cfg tr s (D.protocol.phases tr))
    (ht : s.tasks[i]? = some ⟨n, .call o k⟩) (hp : (D.protocol.phases tr)[i]? = some p)
    (hpre : Phase.pre D.cfg p o) (hsem : Sem s.world o r w')
    (hc : Calm D.cfg tr s (.call i o r)) :
    Quiet D.cfg ((s, .call i o r) :: tr) ⟨w', s.tasks.set i ⟨n, k r⟩⟩
      ((D.protocol.phases tr).set i (Phase.next D.cfg p o r)) := by
  have hnow : w'.now = s.world.now := now_of_sem hsem
  constructor
  case past =>
    intro j T hT
    show T ≤ w'.now
    rw [hnow]
    rcases mem_writeTimes hT with ⟨_, rfl⟩ | hT
    · exact Nat.le_refl _
    · exact hq.past j T hT
  case stamped => exact fun j row hrow T hT => stamped_call hq hsem hrow hT
  case ofSweep =>
    intro m t q ht' hname hq'
    rcases getElem?_set_cases ht' with ⟨rfl, rfl⟩ | ⟨hne, ht'⟩
    · rcases getElem?_set_cases hq' with ⟨_, rfl⟩ | ⟨hne, _⟩
      · exact ofSweep_next (hq.ofSweep m _ p ht hname hp) hpre
      · exact absurd rfl hne
    · rw [List.getElem?_set_ne (Ne.symm hne)] at hq'
      exact hq.ofSweep m t q ht' hname hq'
  case unowed =>
    intro j m t ht' hname howes T hT
    show T + window D.cfg ≤ w'.now
    rw [hnow]
    rcases getElem?_set_cases ht' with ⟨rfl, rfl⟩ | ⟨hne, ht'⟩
    · cases (show n = .sweep from hname)
      rcases mem_yieldTimes hT with ⟨hback, _⟩ | hT
      · rw [not_handsBack (hq.ofSweep m _ p ht rfl hp) hpre] at hback
        simp at hback
      · exact unowed_mover hob hq ht hp hpre hsem hc howes hT
    · rcases mem_yieldTimes hT with ⟨hback, _⟩ | hT
      · exact absurd howes (hc.unswept j hback m t ht' hname)
      · exact hq.unowed j m t ht' hname howes T hT

/-- STEP: a start keeps the invariant; a sweep starts by selecting. -/
theorem quiet_spawn (hlen : s.tasks.length = ps.length) (hq : Quiet D.cfg tr s ps) :
    Quiet D.cfg ((s, .spawn n) :: tr) ⟨s.world, s.tasks ++ [⟨n, D.boot n⟩]⟩
      (ps ++ [Phase.start n]) where
  past j T hT := by
    rcases mem_writeTimes hT with ⟨hw, _⟩ | hT
    · cases hw
    · exact hq.past j T hT
  stamped j row hrow T hT := by
    rcases mem_writeTimes hT with ⟨hw, _⟩ | hT
    · cases hw
    · exact hq.stamped j row hrow T hT
  ofSweep m t p ht hname hp := by
    rcases getElem?_append_cases ht with ⟨rfl, rfl⟩ | ht
    · rw [hlen, List.getElem?_concat_length] at hp
      cases hp
      cases (show n = .sweep from hname)
      exact trivial
    · have hlt := (List.getElem?_eq_some_iff.mp ht).1
      rw [List.getElem?_append_left (hlen ▸ hlt)] at hp
      exact hq.ofSweep m t p ht hname hp
  unowed j m t ht hname howes T hT := by
    rcases mem_yieldTimes hT with ⟨hback, _⟩ | hT
    · cases hback
    · rcases getElem?_append_cases ht with ⟨_, rfl⟩ | ht
      · refine absurd howes (not_owes_of_clear (D.protocol.boots n) ?_)
        cases n <;> exact trivial
      · exact hq.unowed j m t ht hname howes T hT

/-- STEP: time passes. -/
theorem quiet_drift (hd : Drift s.world w') (hq : Quiet D.cfg tr s ps) :
    Quiet D.cfg ((s, .drift) :: tr) ⟨w', s.tasks⟩ ps where
  past j T hT := by
    rcases mem_writeTimes hT with ⟨hw, _⟩ | hT
    · cases hw
    · exact Nat.le_trans (hq.past j T hT) (now_of_drift hd)
  stamped j row hrow T hT := by
    rcases mem_writeTimes hT with ⟨hw, _⟩ | hT
    · cases hw
    · exact hq.stamped j row (by rw [← jobs_of_drift hd]; exact hrow) T hT
  ofSweep := hq.ofSweep
  unowed j m t ht hname howes T hT := by
    rcases mem_yieldTimes hT with ⟨hback, _⟩ | hT
    · cases hback
    · exact Nat.le_trans (hq.unowed j m t ht hname howes T hT) (now_of_drift hd)

/-- RUN: the invariant of the runs that meet the conditions. -/
theorem quiet_run (h : D.sys.Run w₀ tr s) (hc : Always (Calm D.cfg) tr) :
    D.protocol.Obeyed tr s ∧ Quiet D.cfg tr s (D.protocol.phases tr) := by
  have hinv := D.protocol.run_invariant (G := fun _ _ => True)
    (I := fun tr s ps => Always (Calm D.cfg) tr → Quiet D.cfg tr s ps) ?_ ?_ ?_ ?_ h fun _ _ => trivial
  · exact ⟨hinv.1, hinv.2 hc⟩
  · exact fun _ => ⟨nofun, nofun, fun k t p ht => by simp at ht, fun j k t ht => by simp at ht⟩
  · intro tr s i n o k r w' p hr hob hq ht hp hpre hsem _
    refine ⟨trivial, fun hc => ?_⟩
    obtain ⟨hstep, hc⟩ := always_cons.mp hc
    exact quiet_call hob (hq hc) ht hp hpre hsem hstep
  · exact fun hr hob hq ha _ hc => quiet_spawn hob.length (hq (always_cons.mp hc).2)
  · exact fun hr hob hq hd _ hc => quiet_drift hd (hq (always_cons.mp hc).2)

/-! ## 3. Yielded jobs are safe -/

theorem selects_false (h : D.sys.Run w₀ tr s) (hs : D.sys.Step s l s')
    (hcs : Always (Calm D.cfg) tr) (hc : Calm D.cfg tr s l) (hrec : Recent D.cfg tr j s.world.now) :
    selects j l = false := by
  obtain ⟨hob, hq⟩ := quiet_run h hcs
  refine Bool.eq_false_iff.mpr fun hsel => ?_
  unfold selects at hsel
  split at hsel
  · next i a b rows =>
    obtain ⟨row, hmem, hj⟩ := List.any_eq_true.mp hsel
    cases hs with
    | call ht hsem =>
      obtain ⟨p, _, hpre⟩ := hob.permitted ht
      obtain ⟨-, rfl, rfl⟩ := Phase.pre_selectStale hpre
      obtain ⟨rfl, _⟩ := hsem
      obtain ⟨hfind, hstale⟩ := Relational.Table.mem_select.mp hmem
      rw [of_decide_eq_true hj] at hfind
      rw [not_stale hq hc hfind hrec] at hstale
      simp at hstale
  · simp at hsel

theorem sweeps_false (h : D.sys.Run w₀ tr s) (hs : D.sys.Step s l s')
    (hcs : Always (Calm D.cfg) tr) (hrec : Recent D.cfg tr j s.world.now) :
    sweeps j s l = false := by
  obtain ⟨hob, hq⟩ := quiet_run h hcs
  refine Bool.eq_false_iff.mpr fun hsw => ?_
  unfold sweeps at hsw
  split at hsw
  · next i j' set a =>
    cases hs with
    | @call _ n _ k _ _ ht hsem =>
      rw [ht] at hsw
      obtain ⟨hj, hname⟩ : j' = j ∧ n = .sweep := by simpa using hsw
      subst hj
      obtain ⟨T, hT, hlt⟩ := hrec
      have hle := hq.unowed j' i _ ht hname (Proc.reaches_head _ ⟨set, rfl⟩) T hT
      omega
  · simp at hsw

/-- **A yielded job is safe from the sweeper**, in every run whose steps all meet the conditions. -/
theorem yield_safe (h : D.sys.Run w₀ tr s) (hc : Always (Calm D.cfg) tr) :
    Always (SafeStep D.cfg) tr :=
  h.always (fun hr hs hcs hc _ hrec => ⟨selects_false hr hs hcs hc hrec, sweeps_false hr hs hcs hrec⟩)
    hc

end Steps

/-- A check of one step that is enough for the conditions. -/
def calmly (cfg : Settings) (tr : SysTrace) (s : SysState) :
    Label Op Ans PyExc TaskName → Bool
  | .call _ (.selectStale _ _) (.ok _) =>
      (s.world.jobs.select fun _ => true).all fun r =>
        r.status ≠ .pending && (writeTimes r.jobId tr).any fun T =>
          s.world.now ≤ T + minutes cfg.staleProcessingMinutes
  | .call _ (.lpush _) (.ok _) => s.tasks.all fun t => t.name ≠ .sweep
  | _ => true

theorem calm_of_calmly {cfg : Settings} {tr : SysTrace} {s : SysState}
    {l : Label Op Ans PyExc TaskName} (h : calmly cfg tr s l = true) : Calm cfg tr s l := by
  have hrow : ∀ i p q rows, l = .call i (.selectStale p q) (.ok rows) → ∀ j row,
      s.world.jobs.find j = some row → row.status ≠ .pending ∧
        ∃ T ∈ writeTimes j tr, s.world.now ≤ T + minutes cfg.staleProcessingMinutes := by
    intro i p q rows heq j row hfind
    subst heq
    have hkey := Relational.Table.find_key hfind
    subst hkey
    have hall := List.all_eq_true.mp h row (Relational.Table.mem_select.mpr ⟨hfind, rfl⟩)
    simpa using hall
  constructor
  case pending => exact fun i p q rows hl j row hf _ hst => absurd hst (hrow i p q rows hl j row hf).1
  case written => exact fun i p q rows hl j row hf _ _ => (hrow i p q rows hl j row hf).2
  case unswept =>
    intro j hback k t ht hname
    unfold handsBack at hback
    split at hback
    · have hne := List.all_eq_true.mp h t (List.mem_of_getElem? ht)
      exact absurd hname (by simpa using hne)
    · simp at hback

namespace Sample

/-- A sweep five minutes after a job was handed back. -/
def requeueAndSweep : List Move := requeue ++ [.tick (minutes 5), .spawn .sweep, .run 2]

theorem replays_requeueAndSweep :
    (deployment.replay (World.fresh 0) requeueAndSweep).isSome = true := by decide +kernel

def requeuedAndSwept : SysTrace × SysState :=
  (deployment.replay (World.fresh 0) requeueAndSweep).get replays_requeueAndSweep

theorem run_requeuedAndSwept :
    deployment.sys.Run (World.fresh 0) requeuedAndSwept.1 requeuedAndSwept.2 :=
  replay_get_run replays_requeueAndSweep

/-- A job has waited 31 minutes; a worker pops it, cannot read its row and yields; the sweeper
    selects. -/
def yieldPending : List Move :=
  [.spawn (.submit job url), .run 0, .run 0, .run 0, .tick (minutes 31), .spawn (.worker 0), .run 1,
    .fail 1 (.postgresError []), .run 1, .run 1, .spawn .sweep, .run 2]

theorem replays_yieldPending :
    (deployment.replay (World.fresh 0) yieldPending).isSome = true := by decide +kernel

def yieldedPending : SysTrace × SysState :=
  (deployment.replay (World.fresh 0) yieldPending).get replays_yieldPending

theorem run_yieldedPending :
    deployment.sys.Run (World.fresh 0) yieldedPending.1 yieldedPending.2 :=
  replay_get_run replays_yieldPending

end Sample

/-- The yielded job of that run is safe. -/
theorem yield_safe_requeued :
    Always (SafeStep Sample.deployment.cfg) Sample.requeuedAndSwept.1 :=
  yield_safe Sample.run_requeuedAndSwept
    (always_of_everyStep (f := calmly Sample.deployment.cfg) (fun _ _ _ => calm_of_calmly)
      (by decide +kernel))

/-- The last step selects the job, which was handed back recently. -/
def selectsRecent (cfg : Settings) (j : Uuid) : SysTrace → Bool
  | [] => false
  | (s, l) :: tr =>
    ((yieldTimes j tr).any fun T => s.world.now < T + window cfg) && selects j l

theorem not_safe {cfg : Settings} {j : Uuid} {tr : SysTrace} (h : selectsRecent cfg j tr = true) :
    ¬ Always (SafeStep cfg) tr := by
  intro hsafe
  cases tr with
  | nil => cases h
  | cons e tr =>
    obtain ⟨hrec, hsel⟩ := (Bool.and_eq_true _ _).mp h
    obtain ⟨T, hT, hlt⟩ := List.any_eq_true.mp hrec
    have hfalse := ((always_cons.mp hsafe).1 j ⟨T, hT, of_decide_eq_true hlt⟩).1
    rw [hsel] at hfalse
    simp at hfalse

/-- **A yielded job is swept**: the touch does not make a PENDING row any younger. -/
theorem yield_swept :
    Sample.deployment.sys.Run (World.fresh 0) Sample.yieldedPending.1 Sample.yieldedPending.2 ∧
      ¬ Always (SafeStep Sample.deployment.cfg) Sample.yieldedPending.1 :=
  ⟨Sample.run_yieldedPending, not_safe (j := Sample.job) (by decide +kernel)⟩

end InvoiceOcr
