/-
  File:      InvoiceOcr/Requeue.lean
  Subject:   THE BOUNDED REQUEUE. Counted failures share one Redis counter per job, and the counter
             bounds what they hand back.

  * `InPeriod` -- a step between the creation of the counter key and its expiry, with Redis up;
  * `counts` -- the counted failures of a stretch: which run, and the count it observed;
  * `CountsFailures` -- the counts of a stretch are those of its failed downloads, detections and
    extractions;
  * `Spent` -- what is left of a run that observed `k`; `spent_step` -- STEP: it stays so;
  * **`bounded_requeue`** -- RUN: every failure of a stage is counted before its run pushes anything,
    and nothing else is; over all runs the counts are 1, 2, 3, …; a run pushes only on a count within
    the cap and orphans beyond it; so no more than `REQUEUE_MAX` messages ever come from the counted
    failures of a period.
-/
import InvoiceOcr.Async.Tally
import InvoiceOcr.Failures
import InvoiceOcr.Protocol

namespace InvoiceOcr

open PyJson Async

/-! ## 1. A period of the counter -/

/-- The counter key of the job is there. -/
def Counting (w : World) (j : Uuid) : Prop := (w.hashes (requeueKey j)).isSome = true

/-- The step is no failed Redis command. -/
def RedisOk (l : Label Op Ans PyExc TaskName) : Prop :=
  ∀ i o x, l = .call i o (.error x) → o.isRedis = false

/-- A step inside the period: Redis is up, and the key, once created, does not expire. -/
def InPeriod (j : Uuid) (s : SysState) (l : Label Op Ans PyExc TaskName) (s' : SysState) : Prop :=
  RedisOk l ∧ (Counting s.world j → Counting s'.world j)

/-- The counted failure of a step: the run and the count it observed. -/
def counted (j : Uuid) : Label Op Ans PyExc TaskName → Option (Nat × Nat)
  | .call i (.hincrby key field) (.ok k) =>
      if key = requeueKey j ∧ field = requeueField then some (i, k) else none
  | _ => none

/-- The counted failures of a stretch, the latest first. -/
def counts (j : Uuid) (tr : SysTrace) : List (Nat × Nat) := tr.filterMap fun e => counted j e.2

def isPush (i : Nat) : Label Op Ans PyExc TaskName → Bool
  | .call i' (.lpush _) (.ok _) => i' = i
  | _ => false

/-- How many messages task `i` has pushed. -/
def pushes (tr : SysTrace) (i : Nat) : Nat := tr.countP fun e => isPush i e.2

/-- Task `i` has attempted the orphan write of the job. -/
def Orphaned (cfg : Settings) (j : Uuid) (tr : SysTrace) (i : Nat) : Prop :=
  Did (fun l => ∃ r, l = .call i (.updateJob j (orphanSet cfg)) r) tr

/-- Task `i` is waiting to make it: on the call itself, or on the expiry of the first count. -/
def Orphaning (cfg : Settings) (j : Uuid) (s : SysState) (i : Nat) : Prop :=
  ∃ n o k, s.tasks[i]? = some ⟨n, .call o k⟩ ∧
    (o = .updateJob j (orphanSet cfg) ∨ ∃ m, o = .expire (requeueKey j) m)

/-- **The bound**, for the counted failures of `seg` and what their runs do in `tr`. -/
structure BoundedRequeue (cfg : Settings) (j : Uuid) (seg tr : SysTrace) (s : SysState) :
    Prop where
  /-- The `k`-th counted failure observes `k`. -/
  inOrder : (counts j seg).reverse.map Prod.snd = List.range' 1 (counts j seg).length
  /-- It can push the job back only within the cap. -/
  capped : ∀ c ∈ counts j seg, 0 < pushes tr c.1 → c.2 ≤ cfg.requeueMax
  /-- Beyond the cap it pushes nothing and attempts the orphan write. -/
  orphaned : ∀ c ∈ counts j seg, cfg.requeueMax < c.2 →
    pushes tr c.1 = 0 ∧ (Orphaned cfg j tr c.1 ∨ Orphaning cfg j s c.1)
  /-- So many messages come from them at most. -/
  total : ((counts j seg).map fun c => pushes tr c.1).sum ≤ cfg.requeueMax

/-- **The counts of `seg` are those of the stage failures**: `before` is the run up to the stretch,
    `s` the state after it. -/
structure CountsFailures (D : Deployment) (j : Uuid) (before seg : SysTrace) (s : SysState) :
    Prop where
  /-- A count is made by a run of the job, after its download, its detection or its extraction has
      failed and before it has pushed anything. -/
  failed : ∀ c ∈ counts j seg, ∃ p rest v es es', s.tasks[c.1]? = some ⟨.worker p, rest⟩ ∧
    callsOf c.1 (seg ++ before) =
      es ++ ⟨.hincrby (requeueKey j) requeueField, .ok c.2⟩ :: es' ∧
    poppedJob es = some (j, v) ∧ StageFailure (D.worker p) v es ∧ Fresh es
  /-- A failure not counted before the stretch has been counted in it, unless the run waits on the
      very count and has pushed nothing. -/
  counted : ∀ i p rest v, s.tasks[i]? = some ⟨.worker p, rest⟩ →
    poppedJob (callsOf i (seg ++ before)) = some (j, v) →
    StageFailure (D.worker p) v (callsOf i (seg ++ before)) → ¬ Counted j (callsOf i before) →
    (∃ k, (i, k) ∈ counts j seg) ∨
      ((∃ k, rest = .call (.hincrby (requeueKey j) requeueField) k) ∧ pushes (seg ++ before) i = 0)

/-! ## 2. What is left of a counted run -/

/-- What is left of the run `i` that observed the count `k`, and what it has done. -/
def Spent (cfg : Settings) (j : Uuid) (k : Nat) (tr : SysTrace) (i : Nat) : Phase → Prop
  | .expiring j' _ => j' = j ∧ k = 1 ∧ pushes tr i = 0
  | .yielding j' _ y => j' = j ∧ y = .counted k ∧ k ≤ cfg.requeueMax ∧ pushes tr i = 0
  | .touched j' _ y => j' = j ∧ y = .counted k ∧ k ≤ cfg.requeueMax ∧ pushes tr i = 0
  | .failing j' _ => j' = j ∧ k ≤ cfg.requeueMax ∧ pushes tr i = 0
  | .orphaning j' _ => j' = j ∧ cfg.requeueMax < k ∧ pushes tr i = 0
  | .closed _ => pushes tr i = 0 ∧ (cfg.requeueMax < k → Orphaned cfg j tr i)
  | .pushed _ _ => k ≤ cfg.requeueMax ∧ pushes tr i = 1
  | _ => False

/-- A pass that has not counted, nor pushed. -/
def Phase.Early : Phase → Prop
  | .idle => True
  | .unread _ _ => True
  | .live _ _ => True
  | _ => False

section Steps

variable {D : Deployment} {w₀ w w' : World} {tr seg rest : SysTrace} {s s' : SysState} {i m : Nat}
  {n : TaskName} {o : Op} {r : Except PyExc (Ans o)} {k : Except PyExc (Ans o) → Py Unit}
  {p : Phase} {ps : List Phase} {j : Uuid} {c : Nat × Nat}

theorem pushes_cons (l : Label Op Ans PyExc TaskName) (i : Nat) :
    pushes ((s, l) :: tr) i = pushes tr i + if isPush i l = true then 1 else 0 :=
  List.countP_cons

theorem pushes_same {l : Label Op Ans PyExc TaskName} (h : isPush i l = false) :
    pushes ((s, l) :: tr) i = pushes tr i := by
  rw [pushes_cons, h]
  rfl

/-- A step that is no push. -/
theorem pushes_call (h : ∀ msg, o ≠ .lpush msg) :
    pushes ((s, .call i o r) :: tr) m = pushes tr m := by
  refine pushes_same ?_
  cases o <;> first | rfl | exact absurd rfl (h _)

theorem pushes_push {msg : Str} :
    pushes ((s, .call i (.lpush msg) (.ok ())) :: tr) i = pushes tr i + 1 := by
  simp [pushes_cons, isPush]

theorem isPush_other (h : m ≠ i) : isPush m (.call i o r) = false := by
  cases o <;> cases r <;> first | rfl | exact decide_eq_false (Ne.symm h)

/-- What another task does leaves a counted run as it is. -/
theorem spent_mono {l : Label Op Ans PyExc TaskName} (h : Spent D.cfg j c.2 tr i p)
    (hl : isPush i l = false) : Spent D.cfg j c.2 ((s, l) :: tr) i p := by
  cases p <;> simp only [Spent, pushes_same hl] at h ⊢ <;> try exact h
  exact ⟨h.1, fun hk => did_cons.mpr (Or.inr (h.2 hk))⟩

/-- STEP: a counted run stays one, whatever comes back from Postgres. -/
theorem spent_step (h : Spent D.cfg j c.2 tr i p) (hpre : Phase.pre D.cfg p o)
    (hok : RedisOk (.call i o r)) :
    Spent D.cfg j c.2 ((s, .call i o r) :: tr) i (Phase.next D.cfg p o r) := by
  have hrun : ∃ v, p.OfRun j v := by
    cases p <;> first | exact hpre.elim | exact h.elim | exact ⟨_, h.1, rfl⟩ | exact ⟨.null, h.1⟩
  obtain ⟨v, hrun⟩ := hrun
  have hwork := work hrun hpre r
  generalize Phase.next D.cfg p o r = q at hwork
  cases hwork with
  | plain => exact h.elim
  | unsaved => exact h.elim
  | firstCount => exact h.elim
  | count => exact h.elim
  | overCount => exact h.elim
  | uncounted => exact h.elim
  | pushedInBump => cases h.2.1
  | @closed p set r hp hset =>
    have hzero : pushes tr i = 0 := by
      cases p with
      | yielding => exact h.2.2.2
      | failing => exact h.2.2
      | orphaning => exact h.2.2
      | _ => first | exact h.elim | exact hp.elim
    refine ⟨(pushes_call (by simp)).trans hzero, fun hk => ?_⟩
    -- beyond the cap the only closing write is the orphan write
    cases p with
    | orphaning => cases hpre; exact did_cons.mpr (Or.inl ⟨r, rfl⟩)
    | yielding => exact absurd h.2.2.1 (Nat.not_le.mpr hk)
    | failing => exact absurd h.2.1 (Nat.not_le.mpr hk)
    | _ => first | exact h.elim | exact hp.elim
  | touched hp =>
    rcases hp with rfl | ⟨rfl, rfl⟩
    · obtain ⟨-, rfl, hk, hz⟩ := h
      exact ⟨rfl, rfl, hk, (pushes_call (by simp)).trans hz⟩
    · exact h.elim
  | untouched hp =>
    rcases hp with rfl | ⟨rfl, rfl⟩
    · exact ⟨rfl, h.2.2.1, (pushes_call (by simp)).trans h.2.2.2⟩
    · exact h.elim
  | pushed =>
    refine ⟨h.2.2.1, ?_⟩
    rw [pushes_push, h.2.2.2]
  | unpushed => cases hok _ _ _ rfl
  | expiry hle =>
    obtain ⟨-, hk, hz⟩ := h
    rw [hk]
    exact ⟨rfl, rfl, hle, (pushes_call (by simp)).trans hz⟩
  | overExpiry hlt =>
    obtain ⟨-, hk, hz⟩ := h
    rw [hk]
    exact ⟨rfl, hlt, (pushes_call (by simp)).trans hz⟩
  | noExpiry => cases hok _ _ _ rfl

/-- The passes that have not counted come from such passes, and push nothing. -/
theorem early_next (hpre : Phase.pre D.cfg p o) (h : (Phase.next D.cfg p o r).Early) :
    p.Early ∧ ∀ msg, o ≠ .lpush msg := by
  by_cases hrun : ∃ j v, p.OfRun j v
  · obtain ⟨j, v, hp⟩ := hrun
    have hwork := work hp hpre r
    generalize Phase.next D.cfg p o r = q at hwork h
    cases hwork with
    | plain ho =>
      refine ⟨trivial, fun msg he => ?_⟩
      subst he
      cases ho
    | _ => exact h.elim
  · have hadv := advance hpre r
    generalize Phase.next D.cfg p o r = q at hadv h
    cases hadv with
    | run hp => exact absurd ⟨_, _, hp⟩ hrun
    | popped => exact ⟨trivial, nofun⟩
    | read => exact ⟨trivial, nofun⟩
    | _ => exact h.elim

/-! ## 3. The account of a period -/

/-- Every run that made one of the counts `cs` is spent. -/
def AllSpent (cfg : Settings) (j : Uuid) (cs : List (Nat × Nat)) (tr : SysTrace)
    (ps : List Phase) : Prop :=
  ∀ c ∈ cs, ∃ p, ps[c.1]? = some p ∧ Spent cfg j c.2 tr c.1 p

/-- **The account of a period.** -/
structure Accounted (cfg : Settings) (j : Uuid) (tr : SysTrace) (s : SysState)
    (ps : List Phase) : Prop where
  inOrder : (counts j tr).reverse.map Prod.snd = List.range' 1 (counts j tr).length
  counter : s.world.counter (requeueKey j) requeueField = (counts j tr).length
  present : 0 < (counts j tr).length → Counting s.world j
  spent : AllSpent cfg j (counts j tr) tr ps
  early : ∀ (i : Nat) p, ps[i]? = some p → p.Early → pushes tr i = 0

/-- STEP: the spent runs after a call. -/
theorem allSpent_call {cs : List (Nat × Nat)} (h : AllSpent D.cfg j cs tr ps)
    (hp : ps[i]? = some p) (hpre : Phase.pre D.cfg p o) (hok : RedisOk (.call i o r)) :
    AllSpent D.cfg j cs ((s, .call i o r) :: tr) (ps.set i (Phase.next D.cfg p o r)) := by
  intro c hc
  obtain ⟨q, hq, hspent⟩ := h c hc
  by_cases hci : c.1 = i
  · subst hci
    cases Option.some.inj (hq.symm.trans hp)
    have hlt := (List.getElem?_eq_some_iff.mp hp).1
    exact ⟨_, List.getElem?_set_self hlt, spent_step hspent hpre hok⟩
  · exact ⟨q, (List.getElem?_set_ne (Ne.symm hci)).trans hq, spent_mono hspent (isPush_other hci)⟩

theorem allSpent_mono {cs : List (Nat × Nat)} {l : Label Op Ans PyExc TaskName}
    (h : AllSpent D.cfg j cs tr ps) (hl : ∀ i, isPush i l = false) (qs : List Phase) :
    AllSpent D.cfg j cs ((s, l) :: tr) (ps ++ qs) := by
  intro c hc
  obtain ⟨q, hq, hspent⟩ := h c hc
  have hlt := (List.getElem?_eq_some_iff.mp hq).1
  exact ⟨q, (List.getElem?_append_left hlt).trans hq, spent_mono hspent (hl c.1)⟩

/-- A count of the job is made by a live run of it, which is then spent. -/
theorem spent_count (hpre : Phase.pre D.cfg p (.hincrby (requeueKey j) requeueField))
    (hzero : pushes tr i = 0) (count : Nat) :
    Spent D.cfg j count ((s, .call i (.hincrby (requeueKey j) requeueField) (.ok count)) :: tr) i
      (Phase.next D.cfg p (.hincrby (requeueKey j) requeueField) (.ok count)) := by
  obtain ⟨j', v, rfl, hkey, _⟩ := Phase.pre_hincrby hpre
  cases requeueKey_injective hkey
  have hz := (pushes_call (m := i) (s := s) (i := i)
    (o := .hincrby (requeueKey j) requeueField) (r := .ok count) (by simp)).trans hzero
  have hwork := work (p := .live j v) (v := v) ⟨rfl, rfl⟩ hpre (.ok count)
  generalize Phase.next D.cfg _ _ _ = q at hwork
  cases hwork with
  | firstCount => exact ⟨rfl, rfl, hz⟩
  | count _ hle => exact ⟨rfl, rfl, hle, hz⟩
  | overCount _ hlt => exact ⟨rfl, hlt, hz⟩
  | plain ho => cases ho

theorem early_call (h : ∀ (i : Nat) p, ps[i]? = some p → p.Early → pushes tr i = 0)
    (hp : ps[i]? = some p) (hpre : Phase.pre D.cfg p o) (m : Nat) (q : Phase)
    (hq : (ps.set i (Phase.next D.cfg p o r))[m]? = some q) (he : q.Early) :
    pushes ((s, .call i o r) :: tr) m = 0 := by
  rcases getElem?_set_cases hq with ⟨rfl, rfl⟩ | ⟨hne, hq⟩
  · obtain ⟨hearly, ho⟩ := early_next hpre he
    exact (pushes_call ho).trans (h m p hp hearly)
  · exact (pushes_same (isPush_other hne)).trans (h m q hq he)

/-- A step that counts no failure of the job. -/
theorem counts_same {l : Label Op Ans PyExc TaskName} (h : counted j l = none) :
    counts j ((s, l) :: tr) = counts j tr := by
  simp only [counts, List.filterMap_cons, h]

theorem counted_none (h : ∀ a, r = .ok a → o ≠ .hincrby (requeueKey j) requeueField) :
    counted j (.call i o r) = none := by
  cases r with
  | error x => cases o <;> rfl
  | ok a =>
    cases o with
    | hincrby key field =>
      refine if_neg fun hk => h a rfl ?_
      rw [hk.1, hk.2]
    | _ => rfl

/-- STEP: a call keeps the account. -/
theorem accounted_call (h : Accounted D.cfg j tr s ps) (hp : ps[i]? = some p)
    (hpre : Phase.pre D.cfg p o) (hsem : Sem s.world o r w') (hok : RedisOk (.call i o r))
    {ts : List (Task Op Ans PyExc TaskName)} :
    Accounted D.cfg j ((s, .call i o r) :: tr) ⟨w', ts⟩
      (ps.set i (Phase.next D.cfg p o r)) := by
  have hspent := allSpent_call (s := s) h.spent hp hpre hok
  have hearly := early_call (s := s) (r := r) h.early hp hpre
  have hchange := counterChange_of_sem hsem (requeueKey j) requeueField
  cases hchange with
  | same hc hk ho =>
    have hcounts : counts j ((s, .call i o r) :: tr) = counts j tr :=
      counts_same (counted_none ho)
    constructor
    case inOrder => rw [hcounts]; exact h.inOrder
    case counter => rw [hcounts]; exact hc.trans h.counter
    case present => rw [hcounts]; exact fun hpos => hk (h.present hpos)
    case spent => rw [hcounts]; exact hspent
    case early => exact hearly
  | bumped hc hk =>
    have hzero : pushes tr i = 0 := by
      obtain ⟨j', v, rfl, _⟩ := Phase.pre_hincrby hpre
      exact h.early i _ hp trivial
    rw [h.counter] at hc hspent hearly ⊢
    generalize hn : (counts j tr).length = n at hc hspent hearly ⊢
    -- the new count is the number of the counts before it, plus one
    have hcounts : counts j ((s, .call i (.hincrby (requeueKey j) requeueField) (.ok (n + 1))) :: tr)
        = (i, n + 1) :: counts j tr := by
      simp [counts, counted]
    constructor
    case inOrder =>
      rw [hcounts, List.reverse_cons, List.map_append, h.inOrder, List.length_cons, hn,
        List.range'_1_concat, Nat.add_comm 1 n]
      rfl
    case counter => rw [hcounts, List.length_cons, hn]; exact hc
    case present => exact fun _ => hk
    case spent =>
      rw [hcounts]
      intro c hmem
      rcases List.mem_cons.mp hmem with rfl | hmem
      · have hlt := (List.getElem?_eq_some_iff.mp hp).1
        exact ⟨_, List.getElem?_set_self hlt, spent_count hpre hzero (n + 1)⟩
      · exact hspent c hmem
    case early => exact hearly

/-- STEP: a start keeps the account. -/
theorem accounted_spawn (hr : D.sys.Run w₀ (tr ++ seg) s) (hlen : s.tasks.length = ps.length)
    (h : Accounted D.cfg j tr s ps) {ts : List (Task Op Ans PyExc TaskName)} :
    Accounted D.cfg j ((s, .spawn n) :: tr) ⟨s.world, ts⟩ (ps ++ [Phase.start n]) where
  inOrder := h.inOrder
  counter := h.counter
  present := h.present
  spent := allSpent_mono h.spent (fun _ => rfl) _
  early m q hq he := by
    refine (pushes_same rfl).trans ?_
    rcases getElem?_append_cases hq with ⟨rfl, _⟩ | hq
    · refine Nat.eq_zero_of_not_pos fun hpos => ?_
      obtain ⟨e, hmem, hpush⟩ := List.countP_pos_iff.mp hpos
      have hlt := hr.index_lt (i := ps.length) (P := fun l => isPush ps.length l = true)
        (fun l hl => ?_) ⟨e, List.mem_append_left _ hmem, hpush⟩
      · omega
      · cases l with
        | call i' o r =>
          by_cases hi : ps.length = i'
          · exact ⟨o, r, by rw [hi]⟩
          · rw [isPush_other hi] at hl
            simp at hl
        | spawn n => cases hl
        | drift => cases hl
    · exact h.early m q hq he

/-- STEP: inside the period the world's own steps keep the account. -/
theorem accounted_drift (hd : Drift s.world w') (hkeep : Counting s.world j → Counting w' j)
    (h : Accounted D.cfg j tr s ps) {ts : List (Task Op Ans PyExc TaskName)} :
    Accounted D.cfg j ((s, .drift) :: tr) ⟨w', ts⟩ ps where
  inOrder := h.inOrder
  counter := by
    have hsame : w'.hashes (requeueKey j) = s.world.hashes (requeueKey j) := by
      rcases hashes_of_drift hd (requeueKey j) with hh | ⟨hnone, hsome⟩
      · exact hh
      · have hc := hkeep hsome
        simp only [Counting, hnone] at hc
        simp at hc
    simp only [World.counter, hsame]
    exact h.counter
  present hpos := hkeep (h.present hpos)
  spent := by
    have hs := allSpent_mono (s := s) (l := .drift) h.spent (fun _ => rfl) []
    rwa [List.append_nil] at hs
  early m q hq he := h.early m q hq he

/-- RUN: the account of a period. -/
theorem accounted_run {s₁ s₂ : SysState} (h₁ : D.sys.Run w₀ tr s₁)
    (hnew : ¬ Counting s₁.world j) (hseg : D.sys.Path (InPeriod j) s₁ seg s₂) :
    Accounted D.cfg j seg s₂ (D.protocol.phases (seg ++ tr)) := by
  refine h₁.path_invariant (P := D.protocol) (I := Accounted D.cfg j) (fun _ _ _ => trivial)
    ?_ ?_ ?_ ?_ hseg
  · refine ⟨rfl, ?_, fun h => absurd h (Nat.lt_irrefl 0), nofun, fun _ _ _ _ => rfl⟩
    simp only [Counting, Bool.not_eq_true, Option.isSome_eq_false_iff, Option.isNone_iff_eq_none] at hnew
    simp only [World.counter, hnew]
    rfl
  · exact fun hob h ht hp hpre hsem hG => accounted_call h hp hpre hsem hG.1
  · exact fun hr hob h ha => accounted_spawn hr hob.length h
  · exact fun h hd hG => accounted_drift hd hG.2 h

/-- RUN: the runs counted in a period stay spent after it, while Redis is up. -/
theorem allSpent_run {s₂ : SysState} {cs : List (Nat × Nat)} (h₂ : D.sys.Run w₀ (seg ++ tr) s₂)
    (h : AllSpent D.cfg j cs seg (D.protocol.phases (seg ++ tr)))
    (hrest : D.sys.Path (fun _ l _ => RedisOk l) s₂ rest s) :
    AllSpent D.cfg j cs (rest ++ seg) (D.protocol.phases (rest ++ (seg ++ tr))) := by
  refine h₂.path_invariant (P := D.protocol)
    (I := fun rest _ ps => AllSpent D.cfg j cs (rest ++ seg) ps) (fun _ _ _ => trivial)
    h ?_ ?_ ?_ hrest
  · exact fun hob h ht hp hpre hsem hG => allSpent_call h hp hpre hG
  · exact fun hr hob h ha => allSpent_mono h (fun _ => rfl) _
  · intro rest s w' h hd hG
    have hs := allSpent_mono (s := s) (l := .drift) h (fun _ => rfl) []
    rwa [List.append_nil] at hs

/-! ## 4. The failures of a period -/

theorem redisOk_of_path {s₁ s₂ : SysState} (h : D.sys.Path (InPeriod j) s₁ seg s₂) :
    ∀ e ∈ seg, RedisOk e.2 := by
  induction h with
  | start => exact fun e he => absurd he List.not_mem_nil
  | step _ _ hG ih => exact List.forall_mem_cons.mpr ⟨hG.1, ih⟩

/-- A run that has called for no push has pushed nothing. -/
theorem pushes_of_fresh (h : Fresh (callsOf i tr)) : pushes tr i = 0 := by
  refine Nat.eq_zero_of_not_pos fun hpos => ?_
  obtain ⟨⟨s', l⟩, hmem, hpush⟩ := List.countP_pos_iff.mp hpos
  change isPush i l = true at hpush
  unfold isPush at hpush
  split at hpush
  next i' m _ =>
    cases of_decide_eq_true hpush
    exact absurd (h _ (mem_callsOf.mpr ⟨s', hmem⟩)) Bool.false_ne_true
  next => cases hpush

/-- The counts of a stretch, as calls of their runs. -/
theorem mem_counts {c : Nat × Nat} : c ∈ counts j seg ↔
    ⟨.hincrby (requeueKey j) requeueField, .ok c.2⟩ ∈ callsOf c.1 seg := by
  rw [mem_callsOf, counts, List.mem_filterMap]
  constructor
  · rintro ⟨⟨s', l⟩, hmem, hc⟩
    change counted j l = some c at hc
    unfold counted at hc
    split at hc
    next i key field k =>
      split at hc
      next hkey =>
        obtain ⟨rfl, rfl⟩ := hkey
        cases hc
        exact ⟨s', hmem⟩
      next => cases hc
    next => cases hc
  · rintro ⟨s', hmem⟩
    exact ⟨_, hmem, if_pos ⟨rfl, rfl⟩⟩

/-- RUN: the counts of a period are those of its failures. -/
theorem countsFailures_run {s₁ s₂ : SysState} (h₁ : D.sys.Run w₀ tr s₁)
    (hseg : D.sys.Path (InPeriod j) s₁ seg s₂) : CountsFailures D j tr seg s₂ where
  failed c hc := by
    have h₂ := h₁.append hseg
    have hcall : (⟨.hincrby (requeueKey j) requeueField, .ok c.2⟩ : Event Op Ans PyExc) ∈
        callsOf c.1 (seg ++ tr) := by
      rw [callsOf_append]
      exact List.mem_append_right _ (mem_counts.mp hc)
    have hlt : c.1 < s₂.tasks.length := by
      refine Nat.lt_of_not_le fun hle => ?_
      rw [h₂.callsOf_nil hle] at hcall
      exact List.not_mem_nil hcall
    obtain ⟨⟨n, rest⟩, ht⟩ : ∃ t, s₂.tasks[c.1]? = some t := ⟨_, List.getElem?_eq_getElem hlt⟩
    obtain ⟨p, rfl⟩ := counter_is_worker h₂ ht hcall
    obtain ⟨es, es', hes⟩ := List.append_of_mem hcall
    obtain ⟨j', v, hm, hkey, _, hf, hfresh⟩ := count_of_failure h₂ ht hes
    cases requeueKey_injective hkey
    exact ⟨p, rest, v, es, es', ht, hes, hm, hf, hfresh⟩
  counted i p rest v ht hm hf hbefore := by
    have h₂ := h₁.append hseg
    rcases failure_counted h₂ ht hm hf with ⟨r, hcall⟩ | ⟨hwaits, hfresh⟩
    · rw [callsOf_append] at hcall
      rcases List.mem_append.mp hcall with hcall | hcall
      · exact absurd ⟨r, hcall⟩ hbefore
      · obtain ⟨s', hmem⟩ := mem_callsOf.mp hcall
        cases r with
        | error x => cases redisOk_of_path hseg _ hmem _ _ _ rfl
        | ok k => exact Or.inl ⟨k, mem_counts.mpr hcall⟩
    · exact Or.inr ⟨hwaits, pushes_of_fresh hfresh⟩

/-! ## 5. The bound -/

theorem spent_pushes {cfg : Settings} {count : Nat} (h : Spent cfg j count tr i p) :
    pushes tr i ≤ if decide (count ≤ cfg.requeueMax) = true then 1 else 0 := by
  cases p with
  | pushed j' y => rw [h.2, if_pos (decide_eq_true h.1)]
  | expiring j' v => rw [h.2.2]; exact Nat.zero_le _
  | yielding j' v y => rw [h.2.2.2]; exact Nat.zero_le _
  | touched j' v y => rw [h.2.2.2]; exact Nat.zero_le _
  | failing j' y => rw [h.2.2]; exact Nat.zero_le _
  | orphaning j' k => rw [h.2.2]; exact Nat.zero_le _
  | closed j' => rw [h.1]; exact Nat.zero_le _
  | _ => exact h.elim

/-- A run counted beyond the cap has attempted the orphan write, or waits to make it. -/
theorem spent_orphans {count : Nat} {t : Task Op Ans PyExc TaskName}
    (h : Spent D.cfg j count tr i p) (hlt : D.cfg.requeueMax < count)
    (ht : s.tasks[i]? = some t) (hwp : wp (monitor D.cfg) (fun _ p => p.MayEnd) t.rest p) :
    Orphaned D.cfg j tr i ∨ Orphaning D.cfg j s i := by
  obtain ⟨n, body⟩ := t
  -- a situation in which the run may not end has a call to make
  have hcall : ¬ p.MayEnd → ∃ o k, body = .call o k ∧ Phase.pre D.cfg p o := by
    intro hend
    cases body with
    | ret a => exact absurd hwp hend
    | raise e => exact absurd hwp hend
    | call o k => exact ⟨o, k, rfl, hwp.1⟩
  cases p with
  | closed j' => exact Or.inl (h.2 hlt)
  | orphaning j' k =>
    obtain ⟨o, k, rfl, hpre⟩ := hcall id
    cases h.1
    exact Or.inr ⟨n, o, k, ht, Or.inl hpre⟩
  | expiring j' v =>
    obtain ⟨o, k, rfl, hpre⟩ := hcall id
    cases h.1
    exact Or.inr ⟨n, o, k, ht, Or.inr hpre⟩
  | yielding j' v y => exact absurd h.2.2.1 (Nat.not_le.mpr hlt)
  | touched j' v y => exact absurd h.2.2.1 (Nat.not_le.mpr hlt)
  | failing j' y => exact absurd h.2.1 (Nat.not_le.mpr hlt)
  | pushed j' y => exact absurd h.1 (Nat.not_le.mpr hlt)
  | _ => exact h.elim

/-- **The requeue is bounded.** `seg` is a stretch of a run that starts without a counter of the
    job and lies inside one period of the counter, `rest` what follows while Redis is up. -/
theorem bounded_requeue {s₁ s₂ : SysState} (h₁ : D.sys.Run w₀ tr s₁)
    (hnew : ¬ Counting s₁.world j) (hseg : D.sys.Path (InPeriod j) s₁ seg s₂)
    (hrest : D.sys.Path (fun _ l _ => RedisOk l) s₂ rest s) :
    CountsFailures D j tr seg s₂ ∧ BoundedRequeue D.cfg j seg (rest ++ seg) s := by
  refine ⟨countsFailures_run h₁ hseg, ?_⟩
  have hacc := accounted_run h₁ hnew hseg
  have h₂ := h₁.append hseg
  have hspent := allSpent_run h₂ hacc.spent hrest
  have hob := D.protocol.obeyed_of_run (fun _ _ _ => trivial) (h₂.append hrest)
  have hpush : ∀ c ∈ counts j seg, pushes (rest ++ seg) c.1 ≤
      if decide (c.2 ≤ D.cfg.requeueMax) = true then 1 else 0 := by
    intro c hc
    obtain ⟨p, _, hp⟩ := hspent c hc
    exact spent_pushes hp
  constructor
  case inOrder => exact hacc.inOrder
  case capped =>
    intro c hc hpos
    have hle := hpush c hc
    by_cases hk : c.2 ≤ D.cfg.requeueMax
    · exact hk
    · rw [if_neg (by simpa using hk)] at hle
      omega
  case orphaned =>
    intro c hc hlt
    obtain ⟨p, hp, hs⟩ := hspent c hc
    obtain ⟨t, ht⟩ := hob.task hp
    refine ⟨?_, spent_orphans hs hlt ht (hob.obeys _ t p ht hp)⟩
    have hle := hpush c hc
    rw [if_neg (by simpa using hlt)] at hle
    exact Nat.le_zero.mp hle
  case total =>
    have hsum := sum_le_countP hpush
    have hcount : (counts j seg).countP (fun c => decide (c.2 ≤ D.cfg.requeueMax)) =
        (List.range' 1 (counts j seg).length).countP fun k => decide (k ≤ D.cfg.requeueMax) := by
      rw [← hacc.inOrder, List.countP_map, List.countP_reverse]
      rfl
    exact Nat.le_trans hsum (hcount ▸ countP_range'_le _ _)

end Steps

/-- A check of one step that is enough for a period: Redis is up and nothing expires. -/
def redisUp : Label Op Ans PyExc TaskName → Bool
  | .call _ o (.error _) => !o.isRedis
  | .call _ _ (.ok _) => true
  | .spawn _ => true
  | .drift => false

theorem inPeriod_of_redisUp {D : Deployment} {j : Uuid} {s s' : SysState}
    {l : Label Op Ans PyExc TaskName} (h : redisUp l = true) (hs : D.sys.Step s l s') :
    InPeriod j s l s' := by
  refine ⟨fun i o x hl => ?_, ?_⟩
  · subst hl
    simpa [redisUp] using h
  · cases hs with
    | spawn ha => exact id
    | drift hd => cases h
    | call ht hsem =>
      have hchange := counterChange_of_sem hsem (requeueKey j) requeueField
      cases hchange with
      | same _ hk _ => exact hk
      | bumped _ hk => exact fun _ => hk

/-- A first counted failure: the count is 1 and hands the job back. -/
theorem bounded_requeue_first :
    CountsFailures Sample.deployment Sample.job [] Sample.requeued.1 Sample.requeued.2 ∧
      BoundedRequeue Sample.deployment.cfg Sample.job Sample.requeued.1 ([] ++ Sample.requeued.1)
      Sample.requeued.2 := by
  have hup : Sample.requeued.1.all (fun e => redisUp e.2) = true := by decide +kernel
  have hseg := Sample.run_requeued.path fun e he s' hs =>
    inPeriod_of_redisUp (j := Sample.job) (List.all_eq_true.mp hup e he) hs
  exact bounded_requeue .start (by simp [Counting, World.fresh]) hseg .start

end InvoiceOcr
