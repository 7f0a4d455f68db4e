/-
  File:      InvoiceOcr/Outage.lean
  Subject:   ONE RUN UNDER A POSTGRES OUTAGE, run alone. What is left of a job whose only message
             the run has popped, whichever Postgres calls fail.

  * `OutageSem` -- Redis commands succeed, everything else may fail;
  * `Held` -- the job is in the hands of the run alone: its row is open, nothing is queued;
  * `Standing` -- what the situation of the run says about row, queue and refused writes;
  * **`kept_iff`** -- the job is kept exactly when Postgres refuses no failure write of the run;
  * `job_lost` -- a run that meets an outage and leaves the job neither closed nor queued.
-/
import InvoiceOcr.Protocol
import InvoiceOcr.Replay
import InvoiceOcr.Submission

namespace InvoiceOcr

open PyJson Async

/-! ## 1. What is left of a job -/

/-- Any pattern of failing Postgres calls and stages; Redis commands succeed. -/
def OutageSem (w : World) (o : Op) (r : Except PyExc (Ans o)) (w' : World) : Prop :=
  Sem w o r w' ∧ (o.isRedis = true → ∃ a, r = .ok a)

/-- **The job is kept**: its row is terminal, or a message for it is queued. -/
def Kept (j : Uuid) (w : World) : Prop :=
  (∃ row, w.jobs.find j = some row ∧ row.status.isTerminal = true) ∨
    ∃ m ∈ w.queue, isMessageOf j m = true

/-- Nothing but the run that popped the message knows of the job. -/
structure Held (j : Uuid) (w : World) : Prop where
  row : ∃ row, w.jobs.find j = some row ∧ row.status.isTerminal = false
  unqueued : ∀ m ∈ w.queue, isMessageOf j m = false

/-- Postgres refused a failure write on the job. -/
def Refused (j : Uuid) (es : List (Event Op Ans PyExc)) : Prop :=
  ∃ set e, set.status.isFailed = true ∧ (⟨.updateJob j set, .error e⟩ : Event Op Ans PyExc) ∈ es

variable {j : Uuid} {w w' : World} {o : Op} {es : List (Event Op Ans PyExc)}

theorem Held.not_kept (h : Held j w) : ¬ Kept j w := by
  intro hcase
  rcases hcase with ⟨row, hrow, hterm⟩ | ⟨m, hm, hj⟩
  · obtain ⟨row', hrow', hopen⟩ := h.row
    cases hrow.symm.trans hrow'
    rw [hopen] at hterm
    simp at hterm
  · rw [h.unqueued m hm] at hj
    simp at hj

/-- A call keeps a job held unless it closes the row or pushes a message. -/
theorem Held.of_sem (h : Held j w) {r : Except PyExc (Ans o)} (hsem : Sem w o r w')
    (hset : ∀ set, o = .updateJob j set → (∃ a, r = .ok a) → set.status.isTerminal = false)
    (hpush : ∀ m, o = .lpush m → isMessageOf j m = false) : Held j w' := by
  obtain ⟨row, hrow, hopen⟩ := h.row
  refine ⟨?_, fun m hm => ?_⟩
  · cases rowChange_of_sem hsem j with
    | same hsame => exact ⟨row, hsame.trans hrow, hopen⟩
    | inserted hnone => cases hnone.symm.trans hrow
    | @updated set hnew =>
      rw [hrow] at hnew
      exact ⟨_, hnew, hset set rfl ⟨(), rfl⟩⟩
    | touched hnew =>
      rw [hrow] at hnew
      exact ⟨_, hnew, hopen⟩
    | @purged p n hnew =>
      have hold : row.isOld w.now p = false := by
        unfold JobRow.isOld
        rw [hopen]
        rfl
      rw [hrow] at hnew
      simp only [Option.filter, hold, Bool.not_false, if_true] at hnew
      exact ⟨row, hnew, hopen⟩
  · have hq := queueChange_of_sem hsem
    cases hq with
    | same hsame => exact h.unqueued m (hsame ▸ hm)
    | pushed hnew =>
      rw [hnew] at hm
      rcases List.mem_cons.mp hm with rfl | hm
      · exact hpush _ rfl
      · exact h.unqueued m hm
    | popped hold =>
      have hmem : m ∈ w.queue := by
        rw [hold]
        exact List.mem_append_left _ hm
      exact h.unqueued m hmem

theorem refused_snoc {ev : Event Op Ans PyExc} : Refused j (es ++ [ev]) ↔
    Refused j es ∨ ∃ set e, set.status.isFailed = true ∧ ev = ⟨.updateJob j set, .error e⟩ := by
  constructor
  · intro ⟨set, e, hset, hm⟩
    rcases List.mem_append.mp hm with hm | hm
    · exact Or.inl ⟨set, e, hset, hm⟩
    · exact Or.inr ⟨set, e, hset, (List.mem_singleton.mp hm).symm⟩
  · intro hcase
    rcases hcase with ⟨set, e, hset, hm⟩ | ⟨set, e, hset, rfl⟩
    · exact ⟨set, e, hset, List.mem_append_left _ hm⟩
    · exact ⟨set, e, hset, List.mem_append_right _ List.mem_cons_self⟩

/-- A closing write that takes effect keeps the job. -/
theorem kept_of_write (h : Held j w) {set : JobSet} {a : Unit}
    (hsem : Sem w (.updateJob j set) (.ok a) w') (hset : set.status.isTerminal = true) :
    Kept j w' := by
  obtain ⟨row, hrow, -⟩ := h.row
  obtain ⟨t, ht, rfl⟩ := hsem
  have hnew := Relational.Table.find_modify ht j
  rw [if_pos rfl, hrow] at hnew
  exact Or.inl ⟨_, hnew, hset⟩

/-- Any other event is no refusal. -/
theorem not_refused_snoc (h : ¬ Refused j es) {r : Except PyExc (Ans o)}
    (ho : ∀ set, o = .updateJob j set → (∃ e, r = .error e) → set.status.isFailed = false) :
    ¬ Refused j (es ++ [⟨o, r⟩]) := by
  intro href
  rcases refused_snoc.mp href with href | ⟨set, e, hset, he⟩
  · exact h href
  · cases he
    rw [ho set rfl ⟨e, rfl⟩] at hset
    simp at hset

/-! ## 2. The standing of a run -/

/-- No bump has failed: with Redis up none does. -/
def Phase.Counting : Phase → Prop
  | .yielding _ _ y => y ≠ .blip
  | .touched _ _ y => y ≠ .blip
  | _ => True

/-- **What the situation of the run says** about row, queue and refusals. -/
def Standing (j : Uuid) (v : Json) (es : List (Event Op Ans PyExc)) (w : World) : Phase → Prop
  | .unread j' v' => j' = j ∧ v' = v ∧ Held j w ∧ ¬ Refused j es
  | .closed _ => (Kept j w ∧ ¬ Refused j es) ∨ (Held j w ∧ Refused j es)
  | .pushed _ _ => Kept j w ∧ ¬ Refused j es
  | p => p.OfRun j v ∧ p.Counting ∧ Held j w ∧ ¬ Refused j es

/-- At the end of a run the job is kept, or a failure write was refused. -/
theorem Standing.kept_iff {v : Json} {p : Phase} (h : Standing j v es w p) (hp : p.MayEnd) :
    Kept j w ↔ ¬ Refused j es := by
  cases p with
  | closed j' =>
    rcases h with ⟨hkept, hno⟩ | ⟨hheld, href⟩
    · exact ⟨fun _ => hno, fun _ => hkept⟩
    · exact ⟨fun hkept => absurd hkept hheld.not_kept, fun hno => absurd href hno⟩
  | pushed j' y => exact ⟨fun _ => h.2, fun _ => h.1⟩
  | ended => exact h.1.elim
  | submitting => exact h.1.elim
  | sweeping => exact h.1.elim
  | _ => exact hp.elim

section Steps

variable {cfg : Settings} {url : Str} {p q : Phase} {r : Except PyExc (Ans o)}

/-- **One call of a run past its status check.** -/
theorem standing_work (hw : Work cfg j (.str url) p o r q) (hcount : p.Counting) (hheld : Held j w)
    (hno : ¬ Refused j es) (hsem : OutageSem w o r w') :
    Standing j (.str url) (es ++ [⟨o, r⟩]) w' q := by
  obtain ⟨hsem, hredis⟩ := hsem
  have hup : o.isRedis = true → ∀ x : PyExc, r = .error x → False := by
    intro ho x hx
    obtain ⟨a, ha⟩ := hredis ho
    rw [hx] at ha
    simp at ha
  cases hw with
  | plain ho =>
    have hmark : ∀ set, o = .updateJob j set → set.status = .processing := by
      intro set heq
      subst heq
      exact ho.2.status
    refine ⟨⟨rfl, rfl⟩, trivial, hheld.of_sem hsem ?_ ?_, not_refused_snoc hno ?_⟩
    · intro set hset _
      rw [hmark set hset]
      rfl
    · intro m heq
      subst heq
      cases ho
    · intro set hset _
      rw [hmark set hset]
      rfl
  | @unsaved set x hset =>
    refine ⟨⟨rfl, rfl⟩, nofun, hheld.of_sem hsem nofun nofun, not_refused_snoc hno ?_⟩
    intro set' he _
    cases he
    rw [hset.status]
    rfl
  | @closed p set r hp hset =>
    have hok : ∀ a, r = .ok a → set.status.isTerminal = true →
        Standing j (.str url) (es ++ [⟨.updateJob j set, r⟩]) w' (.closed j) := by
      intro a heq hterm
      subst heq
      exact Or.inl ⟨kept_of_write hheld hsem hterm, not_refused_snoc hno fun _ _ ⟨e, he⟩ => by simp at he⟩
    rcases hset with ⟨hsucc, a, ha⟩ | hfail
    · exact hok a ha (by rw [hsucc.status]; rfl)
    · cases hr : r with
      | ok a => exact hr ▸ hok a hr (JobStatus.isTerminal_of_isFailed hfail.status)
      | error e =>
        subst hr
        exact Or.inr ⟨hheld.of_sem hsem (fun _ _ ⟨a, ha⟩ => by simp at ha) nofun,
          refused_snoc.mpr (Or.inr ⟨set, e, hfail.status, rfl⟩)⟩
  | touched hp =>
    refine ⟨⟨rfl, rfl⟩, ?_, hheld.of_sem hsem nofun nofun, not_refused_snoc hno nofun⟩
    rcases hp with rfl | ⟨rfl, rfl⟩
    · exact hcount
    · exact nofun
  | untouched hp =>
    exact ⟨rfl, trivial, hheld.of_sem hsem nofun nofun, not_refused_snoc hno nofun⟩
  | pushed hy =>
    refine ⟨Or.inr ⟨message j (.str url), ?_, ?_⟩, not_refused_snoc hno nofun⟩
    · rw [show w' = _ from hsem]
      exact List.mem_cons_self
    · rw [isMessageOf_text]
      exact decide_eq_true rfl
  | pushedInBump => exact absurd rfl hcount
  | unpushed => exact (hup rfl _ rfl).elim
  | firstCount => exact ⟨⟨rfl, rfl⟩, trivial, hheld.of_sem hsem nofun nofun, not_refused_snoc hno nofun⟩
  | count hk hle =>
    exact ⟨⟨rfl, rfl⟩, nofun, hheld.of_sem hsem nofun nofun, not_refused_snoc hno nofun⟩
  | overCount hk hlt =>
    exact ⟨rfl, trivial, hheld.of_sem hsem nofun nofun, not_refused_snoc hno nofun⟩
  | uncounted => exact (hup rfl _ rfl).elim
  | expiry hle =>
    exact ⟨⟨rfl, rfl⟩, nofun, hheld.of_sem hsem nofun nofun, not_refused_snoc hno nofun⟩
  | overExpiry hlt =>
    exact ⟨rfl, trivial, hheld.of_sem hsem nofun nofun, not_refused_snoc hno nofun⟩
  | noExpiry => exact (hup rfl _ rfl).elim

/-- **One call of the run.** -/
theorem standing_step (h : Standing j (.str url) es w p) (hpre : Phase.pre cfg p o)
    (hsem : OutageSem w o r w') :
    Standing j (.str url) (es ++ [⟨o, r⟩]) w' (Phase.next cfg p o r) := by
  cases p with
  | unread j' v' =>
    obtain ⟨rfl, rfl, hheld, hno⟩ := h
    cases hpre
    have hheld' : Held j' w' := hheld.of_sem hsem.1 nofun nofun
    have hno' : ¬ Refused j' (es ++ [⟨.selectJob j', r⟩]) := not_refused_snoc hno nofun
    cases r with
    | error e => exact ⟨⟨rfl, rfl⟩, nofun, hheld', hno'⟩
    | ok found =>
      obtain ⟨row, hrow, hopen⟩ := hheld.row
      obtain rfl : found = some row := hsem.1.1.trans hrow
      have hlive : Phase.next cfg (.unread j' (.str url)) (.selectJob j') (.ok (some row)) =
          .live j' (.str url) := by
        show (if row.status.isTerminal then _ else _) = _
        rw [hopen]
        rfl
      rw [hlive]
      exact ⟨⟨rfl, rfl⟩, trivial, hheld', hno'⟩
  | closed j' => exact hpre.elim
  | pushed j' y => exact hpre.elim
  | _ =>
    obtain ⟨hrun, hcount, hheld, hno⟩ := h
    exact standing_work (work hrun hpre r) hcount hheld hno hsem

end Steps

/-! ## 3. Runs -/

/-- A pop of the job's only message leaves the job held. -/
theorem standing_pop {cfg : Settings} {q : List Str} {m url : Str} {row : JobRow}
    {r : Except PyExc (Option Str)} (hq : w.queue = q ++ [m])
    (hm : decodeMessage m = some (j, .str url)) (honly : ∀ m' ∈ q, isMessageOf j m' = false)
    (hrow : w.jobs.find j = some row) (hopen : row.status.isTerminal = false)
    (hsem : OutageSem w .brpop r w') :
    Standing j (.str url) [⟨.brpop, r⟩] w' (Phase.next cfg .idle .brpop r) := by
  obtain ⟨hsem, hredis⟩ := hsem
  obtain ⟨val, rfl⟩ := hredis rfl
  cases val with
  | none =>
    have hempty : w.queue = [] := hsem.1
    rw [hq] at hempty
    cases List.append_eq_nil_iff.mp hempty |>.2
  | some m' =>
    obtain ⟨q', hq', rfl⟩ := hsem
    obtain ⟨rfl, hlast⟩ := List.append_inj' (hq.symm.trans hq') rfl
    cases hlast
    have hnext : Phase.next cfg .idle .brpop (.ok (some m)) = .unread j (.str url) := by
      show Phase.popped (some m) = _
      simp only [Phase.popped, Option.bind_some, hm]
    rw [hnext]
    refine ⟨rfl, rfl, ⟨⟨row, hrow, hopen⟩, honly⟩, fun href => ?_⟩
    obtain ⟨set, e, -, he⟩ := href
    cases List.mem_singleton.mp he

/-- **Which outages a job survives**: a run that pops the only message of an open job keeps the job
    exactly when Postgres refuses no failure write of the run. -/
theorem outage_kept_iff {wk : Worker} {q : List Str} {m url : Str} {row : JobRow}
    {x : Except PyExc Unit} (hq : w.queue = q ++ [m]) (hm : decodeMessage m = some (j, .str url))
    (honly : ∀ m' ∈ q, isMessageOf j m' = false) (hrow : w.jobs.find j = some row)
    (hopen : row.status.isTerminal = false)
    (h : Exec OutageSem (workerIteration jsonDepth (executeTaskLifecycle wk)) w es x w') :
    Kept j w' ↔ ¬ Refused j es := by
  obtain ⟨r, w₁, es', hpop, hrest, rfl⟩ := (exec_call Op.brpop _ x).mp h
  have hobeys := (obeys_iteration wk).2 r trivial
  have hstart : Standing j (.str url) [⟨.brpop, r⟩] w₁ (Phase.next wk.cfg .idle .brpop r) :=
    standing_pop hq hm honly hrow hopen hpop
  obtain ⟨p, hend, hlast⟩ := exec_follow (G := fun _ => True) (R := Standing j (.str url))
    (fun es w p o r w' hR hpre hsem _ => ⟨trivial, standing_step hR hpre hsem⟩) hrest
    (fun _ _ => trivial) hobeys hstart
  exact hlast.kept_iff hend

/-! ## 4. Concrete outages -/

theorem answer_outageSem {faults : Op → Option PyExc}
    {services : (o : Op) → Except PyExc (Ans o)} (hf : ∀ o, o.isRedis = true → faults o = none)
    (w : World) (o : Op) :
    OutageSem w o (w.answer faults services o).1 (w.answer faults services o).2 := by
  refine ⟨answer_sem faults services w o, fun ho => ?_⟩
  unfold World.answer
  rw [hf o ho]
  cases o <;> first | exact ⟨_, rfl⟩ | cases ho

namespace Sample

/-- Stores with the sample job, submitted and not yet popped. -/
def waiting : World := (submitted fun _ => none).2

/-- A pass over them under faults; the download is refused a connection. -/
def pass (faults : Op → Option PyExc) : Except PyExc Unit × World :=
  (workerIteration jsonDepth (executeTaskLifecycle (deployment.worker 0))).interp
    (World.answer faults fun _ => .error (.httpxConnectError [])) waiting

/-- Postgres is down. -/
def postgresDown (o : Op) : Option PyExc := if o.isPostgres then some (.interfaceError []) else none

/-- Postgres refuses the status check only. -/
def checkRefused : Op → Option PyExc
  | .selectJob _ => some (.interfaceError [])
  | _ => none

theorem waiting_queue : waiting.queue = [] ++ [message job (.str url)] := by decide +kernel

theorem waiting_row : ∃ row, waiting.jobs.find job = some row ∧ row.status.isTerminal = false := by
  have hrow : (waiting.jobs.find job).map (fun r => r.status) = some .pending := by decide +kernel
  obtain ⟨row, hfind, hstatus⟩ := Option.map_eq_some_iff.mp hrow
  exact ⟨row, hfind, by rw [hstatus]; rfl⟩

theorem exec_pass {faults : Op → Option PyExc} (hf : ∀ o, o.isRedis = true → faults o = none) :
    ∃ es, Exec OutageSem (workerIteration jsonDepth (executeTaskLifecycle (deployment.worker 0))) waiting es
      (pass faults).1 (pass faults).2 :=
  exec_interp _ (answer_outageSem hf) _ _

end Sample

/-- A status check that is refused, and a yield that is not. -/
theorem outage_survived : ∃ es, Kept Sample.job (Sample.pass Sample.checkRefused).2 ∧
    (Kept Sample.job (Sample.pass Sample.checkRefused).2 ↔ ¬ Refused Sample.job es) := by
  have hf : ∀ o : Op, o.isRedis = true → Sample.checkRefused o = none := by
    intro o ho
    cases o <;> first | rfl | cases ho
  obtain ⟨es, hes⟩ := Sample.exec_pass hf
  obtain ⟨row, hrow, hopen⟩ := Sample.waiting_row
  have hqueue : (Sample.pass Sample.checkRefused).2.queue.any (isMessageOf Sample.job) = true := by
    decide +kernel
  obtain ⟨m, hm, hj⟩ := List.any_eq_true.mp hqueue
  exact ⟨es, Or.inr ⟨m, hm, hj⟩, outage_kept_iff Sample.waiting_queue (decodeMessage_text _ _)
    (fun _ hm => absurd hm List.not_mem_nil) hrow hopen hes⟩

/-- **A job lost to an outage**: the status check, the touch of the yield and the failure write are
    all refused, and the message is gone. -/
theorem job_lost : ∃ es, Exec OutageSem
      (workerIteration jsonDepth (executeTaskLifecycle (Sample.deployment.worker 0))) Sample.waiting es
      (Sample.pass Sample.postgresDown).1 (Sample.pass Sample.postgresDown).2 ∧
    Sample.waiting.queue = [] ++ [message Sample.job (.str Sample.url)] ∧
    (∃ row, Sample.waiting.jobs.find Sample.job = some row ∧ row.status.isTerminal = false) ∧
    ¬ Kept Sample.job (Sample.pass Sample.postgresDown).2 := by
  have hf : ∀ o : Op, o.isRedis = true → Sample.postgresDown o = none := by
    intro o ho
    cases o <;> first | rfl | cases ho
  obtain ⟨es, hes⟩ := Sample.exec_pass hf
  have hqueue : (Sample.pass Sample.postgresDown).2.queue = [] := by decide +kernel
  have hrow : ((Sample.pass Sample.postgresDown).2.jobs.find Sample.job).map (fun r => r.status) =
      some .pending := by decide +kernel
  obtain ⟨row, hfind, hstatus⟩ := Option.map_eq_some_iff.mp hrow
  have hheld : Held Sample.job (Sample.pass Sample.postgresDown).2 :=
    ⟨⟨row, hfind, by rw [hstatus]; rfl⟩, fun m hm => by rw [hqueue] at hm; cases hm⟩
  exact ⟨es, hes, Sample.waiting_queue, Sample.waiting_row, hheld.not_kept⟩

end InvoiceOcr
