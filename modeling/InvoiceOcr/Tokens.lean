/-
  File:      InvoiceOcr/Tokens.lean
  Subject:   ONE TOKEN PER JOB. A job is in one place: on its way into the queue, in the queue, or
             in the hands of one run.

  * `Holding` -- a run has popped the job, not pushed it back, not ended;
  * `Phase.token` -- the weight of a situation; `token_step` -- STEP: no call makes tokens;
  * `Ledger` -- the invariant: queued messages and tokens of a job are at most one together;
  * **`one_token`** -- RUN: so at most one message or run of a job, and no run that pushes its job
    back writes a terminal status, in every run in which no push follows a failed bump of the same
    run;
  * `two_tokens` -- `_bump_or_orphan` yields when the bump fails, and its caller yields again.
-/
import InvoiceOcr.Async.Tally
import InvoiceOcr.Protocol
import InvoiceOcr.Replay

namespace InvoiceOcr

open PyJson Async

/-! ## 1. What a trace shows of a task -/

/-- Task `i` popped a message of the job. -/
def PoppedBy (tr : SysTrace) (i : Nat) (j : Uuid) : Prop :=
  Did (fun l => ∃ m, l = .call i .brpop (.ok (some m)) ∧ isMessageOf j m = true) tr

/-- A push of task `i` took effect. -/
def PushedBy (tr : SysTrace) (i : Nat) : Prop :=
  Did (fun l => ∃ m, l = .call i (.lpush m) (.ok ())) tr

/-- A terminal status write of task `i` took effect. -/
def ClosedBy (tr : SysTrace) (i : Nat) : Prop :=
  Did (fun l => ∃ j set, l = .call i (.updateJob j set) (.ok ()) ∧
    set.status.isTerminal = true) tr

/-- The two commands of `bump_requeue_counter`. -/
def Op.IsBump : Op → Prop
  | .hincrby _ _ => True
  | .expire _ _ => True
  | _ => False

/-- A bump of task `i` failed. -/
def BumpFailedBy (tr : SysTrace) (i : Nat) : Prop :=
  Did (fun l => ∃ o x, l = .call i o (.error x) ∧ o.IsBump) tr

/-- **No push follows a failed bump of the same run.** -/
def NoPushAfterFailedBump (tr : SysTrace) : Prop :=
  ∀ s i m tr', (s, .call i (.lpush m) (.ok ())) :: tr' <:+ tr → ¬ BumpFailedBy tr' i

/-- The run has popped the job and has neither pushed it back nor ended. -/
def Holding (tr : SysTrace) (s : SysState) (j : Uuid) (i : Nat) : Prop :=
  PoppedBy tr i j ∧ ¬ PushedBy tr i ∧ ∃ t, s.tasks[i]? = some t ∧ ¬ t.rest.Ended

open Classical in
/-- How many runs hold the job. -/
noncomputable def holders (tr : SysTrace) (s : SysState) (j : Uuid) : Nat :=
  (List.range s.tasks.length).countP fun i => decide (Holding tr s j i)

/-- How many messages of the job are queued. -/
def queued (w : World) (j : Uuid) : Nat := w.queue.countP (isMessageOf j)

/-! ## 2. Tokens -/

/-- The token of a job: held by the request that will queue it and by the run that popped it. -/
def Phase.token (j : Uuid) : Phase → Nat
  | .unread j' _ => if j' = j then 1 else 0
  | .live j' _ => if j' = j then 1 else 0
  | .expiring j' _ => if j' = j then 1 else 0
  | .yielding j' _ _ => if j' = j then 1 else 0
  | .touched j' _ _ => if j' = j then 1 else 0
  | .failing j' _ => if j' = j then 1 else 0
  | .orphaning j' _ => if j' = j then 1 else 0
  | .submitting j' _ => if j' = j then 1 else 0
  | .inserted j' _ => if j' = j then 1 else 0
  | _ => 0

/-- A run whose bump failed, before its first push. -/
def Phase.Blipped : Phase → Prop
  | .yielding _ _ .blip => True
  | .touched _ _ .blip => True
  | _ => False

/-- A run that has pushed and is about to push again. -/
def Phase.Again : Phase → Prop
  | .yielding _ _ .again => True
  | .touched _ _ .again => True
  | .failing _ .again => True
  | _ => False

/-- The task is of a pass that popped the job. -/
def Phase.Of (j : Uuid) (v : Json) (p : Phase) : Prop := p = .unread j v ∨ p.OfRun j v ∨ p = .ended

/-- A queue text that the system wrote. -/
def IsText (m : Str) : Prop := ∃ j u, m = message j (.str u)

/-- The URL of a situation is a text. -/
def Phase.TextUrl : Phase → Prop
  | .unread _ v => ∃ u, v = .str u
  | .live _ v => ∃ u, v = .str u
  | .expiring _ v => ∃ u, v = .str u
  | .yielding _ v _ => ∃ u, v = .str u
  | .touched _ v _ => ∃ u, v = .str u
  | _ => True

section Step

variable {cfg : Settings} {p : Phase} {o : Op} {r : Except PyExc (Ans o)} {w w' : World} {j : Uuid}
  {v : Json}

theorem token_ofRun (h : p.OfRun j v) (j' : Uuid) : p.token j' ≤ if j = j' then 1 else 0 := by
  cases p with
  | live => rw [h.1.symm]; exact Nat.le_refl _
  | expiring => rw [h.1.symm]; exact Nat.le_refl _
  | yielding => rw [h.1.symm]; exact Nat.le_refl _
  | touched => rw [h.1.symm]; exact Nat.le_refl _
  | failing => rw [show _ = j from h]; exact Nat.le_refl _
  | orphaning => rw [show _ = j from h]; exact Nat.le_refl _
  | closed => exact Nat.zero_le _
  | pushed => exact Nat.zero_le _
  | _ => exact h.elim

/-- A run that may still call something has its token. -/
theorem token_of_pre (h : p.OfRun j v) (hpre : Phase.pre cfg p o) (j' : Uuid) :
    p.token j' = if j = j' then 1 else 0 := by
  cases p with
  | live => rw [h.1.symm]; rfl
  | expiring => rw [h.1.symm]; rfl
  | yielding => rw [h.1.symm]; rfl
  | touched => rw [h.1.symm]; rfl
  | failing => rw [show _ = j from h]; rfl
  | orphaning => rw [show _ = j from h]; rfl
  | closed => exact hpre.elim
  | pushed => exact hpre.elim
  | _ => exact h.elim

/-- **No call makes tokens**: what a call adds to the queue its task gives up, what a task takes
    up the queue loses. A push inside a failed bump is the exception. -/
theorem token_step (hpre : Phase.pre cfg p o) (hsem : Sem w o r w') (htext : p.TextUrl)
    (hqueue : ∀ m ∈ w.queue, IsText m)
    (hblip : ∀ m, o = .lpush m → HEq r (Except.ok () : Except PyExc Unit) → ¬ p.Blipped)
    (j : Uuid) :
    queued w' j + (Phase.next cfg p o r).token j ≤ queued w j + p.token j := by
  have hchange := queueChange_of_sem hsem
  cases hchange with
  | @popped m hq =>
    cases Phase.pre_brpop hpre
    obtain ⟨j', u, rfl⟩ := hqueue m (by rw [hq]; simp)
    have hnext : Phase.next cfg .idle .brpop (.ok (some (message j' (.str u)))) =
        .unread j' (.str u) := by
      show Phase.popped _ = _
      simp only [Phase.popped, Option.bind_some, decodeMessage_text]
    rw [hnext]
    simp only [queued, hq, List.countP_append, List.countP_cons, List.countP_nil,
      isMessageOf_text, Phase.token, decide_eq_true_eq]
    omega
  | @pushed m hq =>
    have hadd : queued w' j = queued w j + if isMessageOf j m = true then 1 else 0 := by
      simp only [queued, hq, List.countP_cons]
    rcases Phase.pre_lpush hpre with ⟨j', v, y, rfl, rfl⟩ | ⟨j', u, rfl, rfl⟩
    · obtain ⟨u, rfl⟩ := htext
      have hy : y ≠ .blip := fun e => hblip _ rfl HEq.rfl (e ▸ trivial)
      have hnext : Phase.next cfg (.touched j' (.str u) y) (.lpush (message j' (.str u))) (.ok ()) =
          .pushed j' y := if_neg hy
      rw [hadd, hnext, isMessageOf_text]
      simp only [Phase.token, decide_eq_true_eq]
      omega
    · rw [hadd, isMessageOf_text]
      simp only [Phase.next, Phase.token, decide_eq_true_eq]
      omega
  | same hq =>
    have hsame : queued w' j = queued w j := by simp only [queued, hq]
    rw [hsame]
    refine Nat.add_le_add_left ?_ _
    have hadv := advance hpre r
    generalize Phase.next cfg p o r = q at hadv
    cases hadv with
    | run hp hq => exact token_of_pre hp hpre j ▸ token_ofRun hq j
    | @popped m =>
      -- a pop that answers a message has shortened the queue
      obtain ⟨q, hq', rfl⟩ := hsem
      have hlen := congrArg List.length (hq'.symm.trans hq.symm)
      simp at hlen
    | read => exact Nat.le_refl _
    | readFailed => exact Nat.le_refl _
    | sampled => exact Nat.le_refl _
    | inserted => exact Nat.le_refl _
    | _ => exact Nat.zero_le _

end Step

/-! ## 3. The invariant -/

/-- **The ledger of a run.** -/
structure Ledger (tr : SysTrace) (s : SysState) (ps : List Phase) : Prop where
  texts : ∀ m ∈ s.world.queue, IsText m
  urls : ∀ p ∈ ps, p.TextUrl
  blips : ∀ i p, ps[i]? = some p → p.Blipped → BumpFailedBy tr i
  again : ∀ p ∈ ps, ¬ p.Again
  bound : ∀ j, queued s.world j + tally (Phase.token j) ps ≤ 1
  unissued : ∀ j, (∀ u, TaskName.submit j u ∉ s.tasks.map (·.name)) →
    queued s.world j + tally (Phase.token j) ps = 0
  popped : ∀ i j p, ps[i]? = some p → PoppedBy tr i j → ∃ v, p.Of j v
  pushed : ∀ i p, ps[i]? = some p → PushedBy tr i → p = .ended ∨ ∃ j y, p = .pushed j y
  closed : ∀ i p, ps[i]? = some p → ClosedBy tr i → (∃ j, p = .closed j) ∨ ∃ rows, p = .sweeping rows

section Ledger

variable {D : Deployment} {w₀ w' : World} {tr : SysTrace} {s : SysState} {i : Nat} {n : TaskName}
  {o : Op} {k : Except PyExc (Ans o) → Py Unit} {r : Except PyExc (Ans o)} {p : Phase}
  {ps : List Phase}

theorem isText_popped {m : Str} (hqueue : ∀ m ∈ s.world.queue, IsText m)
    (hsem : Sem s.world .brpop (.ok (some m)) w') : IsText m := by
  obtain ⟨q, hq, _⟩ := hsem
  exact hqueue m (by rw [hq]; simp)

theorem textUrl_of_ofRun {j : Uuid} {u : Str} (h : p.OfRun j (.str u)) : p.TextUrl := by
  cases p with
  | live => exact ⟨u, h.2⟩
  | expiring => exact ⟨u, h.2⟩
  | yielding => exact ⟨u, h.2⟩
  | touched => exact ⟨u, h.2⟩
  | failing => exact trivial
  | orphaning => exact trivial
  | closed => exact trivial
  | pushed => exact trivial
  | _ => exact h.elim

theorem ofRun_text {j : Uuid} {v : Json} (h : p.OfRun j v) (ht : p.TextUrl) :
    ∃ u, p.OfRun j (.str u) := by
  cases p with
  | live => obtain ⟨u, rfl⟩ := ht; exact ⟨u, h.1, rfl⟩
  | expiring => obtain ⟨u, rfl⟩ := ht; exact ⟨u, h.1, rfl⟩
  | yielding => obtain ⟨u, rfl⟩ := ht; exact ⟨u, h.1, rfl⟩
  | touched => obtain ⟨u, rfl⟩ := ht; exact ⟨u, h.1, rfl⟩
  | failing => exact ⟨[], h⟩
  | orphaning => exact ⟨[], h⟩
  | closed => exact ⟨[], h⟩
  | pushed => exact ⟨[], h⟩
  | _ => exact h.elim

/-- The URL stays a text. -/
theorem textUrl_next (hpre : Phase.pre D.cfg p o) (hsem : Sem s.world o r w') (hu : p.TextUrl)
    (hqueue : ∀ m ∈ s.world.queue, IsText m) : (Phase.next D.cfg p o r).TextUrl := by
  have hadv := advance hpre r
  generalize hq : Phase.next D.cfg p o r = q at hadv
  cases hadv with
  | run hp =>
    obtain ⟨u, hp⟩ := ofRun_text hp hu
    exact hq ▸ textUrl_of_ofRun (ofRun_next hp hpre r)
  | popped hm =>
    obtain ⟨j, u, rfl⟩ := isText_popped hqueue hsem
    cases (decodeMessage_text j u).symm.trans hm
    exact ⟨u, rfl⟩
  | read => exact hu
  | readFailed => exact hu
  | _ => exact trivial

/-- Only a failed bump starts a yield inside a bump. -/
theorem blipped_next (hpre : Phase.pre D.cfg p o) (h : (Phase.next D.cfg p o r).Blipped) :
    p.Blipped ∨ (o.IsBump ∧ ∃ x, r = .error x) := by
  have hadv := advance hpre r
  by_cases hrun : ∃ j v, p.OfRun j v
  · obtain ⟨j, v, hp⟩ := hrun
    have hwork := work hp hpre r
    generalize Phase.next D.cfg p o r = q at hwork h
    cases hwork with
    | uncounted => exact Or.inr ⟨trivial, _, rfl⟩
    | noExpiry => exact Or.inr ⟨trivial, _, rfl⟩
    | @touched _ y hp =>
      rcases hp with rfl | ⟨rfl, rfl⟩
      · cases y <;> first | exact h.elim | exact Or.inl trivial
      · exact h.elim
    | _ => exact h.elim
  · generalize Phase.next D.cfg p o r = q at hadv h
    cases hadv with
    | run hp => exact absurd ⟨_, _, hp⟩ hrun
    | _ => exact h.elim

/-- Only a push inside a failed bump leads to a second yield. -/
theorem again_next (hpre : Phase.pre D.cfg p o) (ha : ¬ p.Again)
    (hblip : ∀ m, o = .lpush m → HEq r (Except.ok () : Except PyExc Unit) → ¬ p.Blipped) :
    ¬ (Phase.next D.cfg p o r).Again := by
  intro h
  have hadv := advance hpre r
  by_cases hrun : ∃ j v, p.OfRun j v
  · obtain ⟨j, v, hp⟩ := hrun
    have hwork := work hp hpre r
    generalize Phase.next D.cfg p o r = q at hwork h
    cases hwork with
    | pushedInBump => exact hblip _ rfl HEq.rfl trivial
    | @touched _ y hp =>
      rcases hp with rfl | ⟨rfl, rfl⟩
      · cases y <;> first | exact h | exact ha trivial
      · exact h
    | @untouched _ y _ hp =>
      rcases hp with rfl | ⟨rfl, rfl⟩
      · cases y <;> first | exact h | exact ha trivial
      · exact h
    | @unpushed y => cases y <;> first | exact h | exact ha trivial
    | _ => exact h
  · generalize Phase.next D.cfg p o r = q at hadv h
    cases hadv with
    | run hp => exact absurd ⟨_, _, hp⟩ hrun
    | _ => exact h

/-- A pass that popped the job stays one. -/
theorem of_next {j : Uuid} {v : Json} (hpre : Phase.pre D.cfg p o) (h : p.Of j v) :
    (Phase.next D.cfg p o r).Of j v := by
  rcases h with rfl | h | rfl
  · have hadv := advance hpre r
    generalize Phase.next D.cfg _ o r = q at hadv
    cases hadv with
    | run hp => exact hp.elim
    | read => exact Or.inr (Or.inl ⟨rfl, rfl⟩)
    | readDone => exact Or.inr (Or.inr rfl)
    | readFailed => exact Or.inr (Or.inl ⟨rfl, rfl⟩)
  · exact Or.inr (Or.inl (ofRun_next h hpre r))
  · exact hpre.elim

/-- A pop of a message of the job. -/
theorem of_popped {j : Uuid} {m : Str} (hpre : Phase.pre D.cfg p .brpop)
    (hm : isMessageOf j m = true) : ∃ v, (Phase.next D.cfg p .brpop (.ok (some m))).Of j v := by
  cases Phase.pre_brpop hpre
  unfold isMessageOf at hm
  cases hd : decodeMessage m with
  | none => simp [hd] at hm
  | some x =>
    obtain ⟨j', v⟩ := x
    have hj : j' = j := by simpa [hd] using hm
    refine ⟨v, Or.inl ?_⟩
    show Phase.popped (some m) = _
    simp only [Phase.popped, Option.bind_some, hd, hj]

/-- Nothing is left to do after a push. -/
theorem pushed_next {m : Str} (hpre : Phase.pre D.cfg p (.lpush m)) (hb : ¬ p.Blipped) :
    Phase.next D.cfg p (.lpush m) (.ok ()) = .ended ∨
      ∃ j y, Phase.next D.cfg p (.lpush m) (.ok ()) = .pushed j y := by
  rcases Phase.pre_lpush hpre with ⟨j, v, y, rfl, rfl⟩ | ⟨j, u, rfl, rfl⟩
  · have hy : y ≠ .blip := fun e => hb (e ▸ trivial)
    exact Or.inr ⟨j, y, if_neg hy⟩
  · exact Or.inl rfl

/-- A run has nothing left to do after a terminal write. -/
theorem closed_next {j : Uuid} {set : JobSet} (hpre : Phase.pre D.cfg p (.updateJob j set))
    (hset : set.status.isTerminal = true) :
    (∃ j', Phase.next D.cfg p (.updateJob j set) (.ok ()) = .closed j') ∨
      ∃ rows, Phase.next D.cfg p (.updateJob j set) (.ok ()) = .sweeping rows := by
  rcases Phase.pre_updateJob hpre with ⟨v, rfl, _⟩ | ⟨v, y, rfl, _⟩ | ⟨y, rfl, _⟩ | ⟨k, rfl, _⟩ |
    ⟨r, rs, rfl, rfl, _⟩
  · have hne : set.status ≠ .processing := fun e => by
      rw [e] at hset
      cases hset
    exact Or.inl ⟨j, if_neg hne⟩
  · exact Or.inl ⟨j, rfl⟩
  · exact Or.inl ⟨j, rfl⟩
  · exact Or.inl ⟨j, rfl⟩
  · exact Or.inr ⟨rs, rfl⟩

theorem did_other {P : Label Op Ans PyExc TaskName → Prop} {l : Label Op Ans PyExc TaskName}
    (hl : ¬ P l) (h : Did P ((s, l) :: tr)) : Did P tr :=
  (did_cons.mp h).resolve_left hl

theorem poppedBy_call {m : Nat} {j : Uuid} (h : PoppedBy ((s, .call i o r) :: tr) m j) :
    (m = i ∧ ∃ msg, o = .brpop ∧ HEq r (Except.ok (some msg) : Except PyExc (Option Str)) ∧
      isMessageOf j msg = true) ∨ PoppedBy tr m j := by
  rcases did_cons.mp h with ⟨msg, he, hm⟩ | h
  · cases he
    exact Or.inl ⟨rfl, msg, rfl, HEq.rfl, hm⟩
  · exact Or.inr h

theorem pushedBy_call {m : Nat} (h : PushedBy ((s, .call i o r) :: tr) m) :
    (m = i ∧ ∃ msg, o = .lpush msg ∧ HEq r (Except.ok () : Except PyExc Unit)) ∨
      PushedBy tr m := by
  rcases did_cons.mp h with ⟨msg, he⟩ | h
  · cases he
    exact Or.inl ⟨rfl, msg, rfl, HEq.rfl⟩
  · exact Or.inr h

theorem closedBy_call {m : Nat} (h : ClosedBy ((s, .call i o r) :: tr) m) :
    (m = i ∧ ∃ j set, o = .updateJob j set ∧ HEq r (Except.ok () : Except PyExc Unit) ∧
      set.status.isTerminal = true) ∨ ClosedBy tr m := by
  rcases did_cons.mp h with ⟨j, set, he, hset⟩ | h
  · cases he
    exact Or.inl ⟨rfl, j, set, rfl, HEq.rfl, hset⟩
  · exact Or.inr h

/-- The tokens after one call. -/
theorem tokens_call (hp : ps[i]? = some p) (hpre : Phase.pre D.cfg p o)
    (hsem : Sem s.world o r w') (hL : Ledger tr s ps)
    (hblip : ∀ m, o = .lpush m → HEq r (Except.ok () : Except PyExc Unit) → ¬ p.Blipped)
    (j : Uuid) :
    queued w' j + tally (Phase.token j) (ps.set i (Phase.next D.cfg p o r)) ≤
      queued s.world j + tally (Phase.token j) ps := by
  have hstep := token_step hpre hsem (hL.urls p (List.mem_of_getElem? hp)) hL.texts hblip j
  have hset := tally_set (f := Phase.token j) (q := Phase.next D.cfg p o r) hp
  omega

/-- STEP: a call keeps the ledger, unless it pushes after a failed bump. -/
theorem ledger_call (ht : s.tasks[i]? = some ⟨n, .call o k⟩) (hp : ps[i]? = some p)
    (hpre : Phase.pre D.cfg p o) (hsem : Sem s.world o r w') (hL : Ledger tr s ps)
    (hno : NoPushAfterFailedBump ((s, .call i o r) :: tr)) :
    Ledger ((s, .call i o r) :: tr) ⟨w', s.tasks.set i ⟨n, k r⟩⟩
      (ps.set i (Phase.next D.cfg p o r)) := by
  have hblip : ∀ m, o = .lpush m → HEq r (Except.ok () : Except PyExc Unit) → ¬ p.Blipped := by
    intro m heq hr hb
    subst heq
    cases hr
    exact hno s i m tr (List.suffix_refl _) (hL.blips i p hp hb)
  have hurl := hL.urls p (List.mem_of_getElem? hp)
  constructor
  case texts =>
    intro m hm
    have hchange := queueChange_of_sem hsem
    cases hchange with
    | same hq => exact hL.texts m (hq ▸ hm)
    | popped hq => exact hL.texts m (by rw [hq]; exact List.mem_append_left _ hm)
    | @pushed m' hq =>
      rcases List.mem_cons.mp (hq ▸ hm) with rfl | hm
      · rcases Phase.pre_lpush hpre with ⟨j, v, y, rfl, rfl⟩ | ⟨j, u, rfl, rfl⟩
        · obtain ⟨u, rfl⟩ := hurl
          exact ⟨j, u, rfl⟩
        · exact ⟨j, u, rfl⟩
      · exact hL.texts m hm
  case urls =>
    intro q hq
    rcases List.mem_or_eq_of_mem_set hq with hq | rfl
    · exact hL.urls q hq
    · exact textUrl_next hpre hsem hurl hL.texts
  case blips =>
    intro m q hq hb
    rcases getElem?_set_cases hq with ⟨rfl, rfl⟩ | ⟨_, hq⟩
    · rcases blipped_next hpre hb with hb | ⟨ho, x, rfl⟩
      · exact did_cons.mpr (Or.inr (hL.blips m p hp hb))
      · exact did_cons.mpr (Or.inl ⟨o, x, rfl, ho⟩)
    · exact did_cons.mpr (Or.inr (hL.blips m q hq hb))
  case again =>
    intro q hq
    rcases List.mem_or_eq_of_mem_set hq with hq | rfl
    · exact hL.again q hq
    · exact again_next hpre (hL.again p (List.mem_of_getElem? hp)) hblip
  case bound =>
    intro j
    exact Nat.le_trans (tokens_call hp hpre hsem hL hblip j) (hL.bound j)
  case unissued =>
    intro j hj
    rw [names_set ht] at hj
    have hle := tokens_call hp hpre hsem hL hblip j
    rw [hL.unissued j hj] at hle
    exact Nat.le_zero.mp hle
  case popped =>
    intro m j q hq hpop
    rcases getElem?_set_cases hq with ⟨rfl, rfl⟩ | ⟨hne, hq⟩
    · rcases poppedBy_call hpop with ⟨_, msg, rfl, hr, hm⟩ | hpop
      · cases hr
        exact of_popped hpre hm
      · obtain ⟨v, hv⟩ := hL.popped m j p hp hpop
        exact ⟨v, of_next hpre hv⟩
    · exact hL.popped m j q hq ((poppedBy_call hpop).resolve_left fun h => hne h.1)
  case pushed =>
    intro m q hq hpush
    rcases getElem?_set_cases hq with ⟨rfl, rfl⟩ | ⟨hne, hq⟩
    · rcases pushedBy_call hpush with ⟨_, msg, rfl, hr⟩ | hpush
      · cases hr
        exact pushed_next hpre (hblip msg rfl HEq.rfl)
      · rcases hL.pushed m p hp hpush with rfl | ⟨j, y, rfl⟩
        · exact hpre.elim
        · exact hpre.elim
    · exact hL.pushed m q hq ((pushedBy_call hpush).resolve_left fun h => hne h.1)
  case closed =>
    intro m q hq hclosed
    rcases getElem?_set_cases hq with ⟨rfl, rfl⟩ | ⟨hne, hq⟩
    · rcases closedBy_call hclosed with ⟨_, j, set, rfl, hr, hset⟩ | hclosed
      · cases hr
        exact closed_next hpre hset
      · rcases hL.closed m p hp hclosed with ⟨j, rfl⟩ | ⟨rows, rfl⟩
        · exact hpre.elim
        · obtain ⟨row, rs, rfl, rfl⟩ := hpre
          exact Or.inr ⟨rs, rfl⟩
    · exact hL.closed m q hq ((closedBy_call hclosed).resolve_left fun h => hne h.1)

/-- A task that is just starting has done nothing: what has done something was there before. -/
theorem did_spawn {P : Label Op Ans PyExc TaskName → Prop} {m : Nat} {q : Phase}
    (hr : D.sys.Run w₀ tr s) (hlen : s.tasks.length = ps.length)
    (hP : ∀ l, P l → ∃ o r, l = .call m o r) (hd : Did P ((s, .spawn n) :: tr))
    (hq : (ps ++ [Phase.start n])[m]? = some q) : ps[m]? = some q ∧ Did P tr := by
  have hd' : Did P tr := by
    refine did_other (fun h => ?_) hd
    obtain ⟨o, r, he⟩ := hP _ h
    simp at he
  have hlt : m < s.tasks.length := hr.index_lt hP hd'
  rcases getElem?_append_cases hq with ⟨he, _⟩ | hq
  · omega
  · exact ⟨hq, hd'⟩

/-- STEP: a start keeps the ledger; a request brings a token for a job that had none. -/
theorem ledger_spawn (hr : D.sys.Run w₀ tr s) (hlen : s.tasks.length = ps.length)
    (ha : fresh (s.tasks.map (·.name)) n) (hL : Ledger tr s ps) :
    Ledger ((s, .spawn n) :: tr) ⟨s.world, s.tasks ++ [⟨n, D.boot n⟩]⟩
      (ps ++ [Phase.start n]) := by
  constructor
  case texts => exact hL.texts
  case urls =>
    intro q hq
    rcases List.mem_append.mp hq with hq | hq
    · exact hL.urls q hq
    · cases List.mem_singleton.mp hq
      cases n <;> exact trivial
  case blips =>
    intro m q hq hb
    rcases getElem?_append_cases hq with ⟨_, rfl⟩ | hq
    · cases n <;> exact hb.elim
    · exact did_cons.mpr (Or.inr (hL.blips m q hq hb))
  case again =>
    intro q hq
    rcases List.mem_append.mp hq with hq | hq
    · exact hL.again q hq
    · cases List.mem_singleton.mp hq
      cases n <;> exact id
  case bound =>
    intro j
    have hb := hL.bound j
    rw [tally_append]
    cases n with
    | submit j' u =>
      by_cases hj : j' = j
      · subst hj
        have h0 := hL.unissued j' ha
        simp only [Phase.start, Phase.token, if_pos]
        omega
      · simp only [Phase.start, Phase.token, if_neg hj]
        exact hb
    | worker p => exact hb
    | sweep => exact hb
    | purge => exact hb
  case unissued =>
    intro j hj
    show queued s.world j + tally (Phase.token j) (ps ++ [Phase.start n]) = 0
    rw [tally_append]
    have h0 := hL.unissued j fun u hu => hj u (by rw [List.map_append]; exact List.mem_append_left _ hu)
    have hstart : (Phase.start n).token j = 0 := by
      cases n with
      | submit j' u =>
        refine if_neg fun e => hj u ?_
        rw [e, List.map_append]
        exact List.mem_append_right _ (List.mem_singleton.mpr rfl)
      | worker p => rfl
      | sweep => rfl
      | purge => rfl
    omega
  case popped =>
    intro m j q hq hpop
    obtain ⟨hq, hpop⟩ := did_spawn (P := fun l => ∃ msg, l = .call m .brpop (.ok (some msg)) ∧
      isMessageOf j msg = true) hr hlen (fun l hl => ⟨_, _, hl.choose_spec.1⟩) hpop hq
    exact hL.popped m j q hq hpop
  case pushed =>
    intro m q hq hpush
    obtain ⟨hq, hpush⟩ := did_spawn (P := fun l => ∃ msg, l = .call m (.lpush msg) (.ok ()))
      hr hlen (fun l hl => ⟨_, _, hl.choose_spec⟩) hpush hq
    exact hL.pushed m q hq hpush
  case closed =>
    intro m q hq hclosed
    obtain ⟨hq, hclosed⟩ := did_spawn (P := fun l => ∃ j set, l = .call m (.updateJob j set) (.ok ()) ∧
      set.status.isTerminal = true) hr hlen (fun l hl => ⟨_, _, hl.choose_spec.choose_spec.1⟩)
      hclosed hq
    exact hL.closed m q hq hclosed

/-- STEP: the world's own steps keep the ledger. -/
theorem ledger_drift (hd : Drift s.world w') (hL : Ledger tr s ps) :
    Ledger ((s, .drift) :: tr) ⟨w', s.tasks⟩ ps := by
  have hq := queue_of_drift hd
  have hqueued : ∀ j, queued w' j = queued s.world j := fun j => by simp only [queued, hq]
  have hold : ∀ {P : Label Op Ans PyExc TaskName → Prop},
      (∀ l, P l → ∃ i o r, l = .call i o r) → Did P ((s, .drift) :: tr) → Did P tr :=
    fun hP hd => did_other (fun h => by obtain ⟨i, o, r, he⟩ := hP _ h; cases he) hd
  constructor
  case texts => exact fun m hm => hL.texts m (hq ▸ hm)
  case urls => exact hL.urls
  case blips => exact fun m q hq hb => did_cons.mpr (Or.inr (hL.blips m q hq hb))
  case again => exact hL.again
  case bound =>
    intro j
    rw [hqueued]
    exact hL.bound j
  case unissued =>
    intro j hj
    rw [hqueued]
    exact hL.unissued j hj
  case popped =>
    exact fun m j q hq hpop => hL.popped m j q hq
      (hold (fun l ⟨msg, he, _⟩ => ⟨_, _, _, he⟩) hpop)
  case pushed =>
    exact fun m q hq hpush => hL.pushed m q hq (hold (fun l ⟨msg, he⟩ => ⟨_, _, _, he⟩) hpush)
  case closed =>
    exact fun m q hq hclosed => hL.closed m q hq
      (hold (fun l ⟨j, set, he, _⟩ => ⟨_, _, _, he⟩) hclosed)

/-- RUN: the ledger of every run in which no push follows a failed bump of the same run. -/
theorem ledger_run (h : D.sys.Run w₀ tr s) (hempty : w₀.queue = [])
    (hno : NoPushAfterFailedBump tr) : D.protocol.Obeyed tr s ∧ Ledger tr s (D.protocol.phases tr) := by
  have hinv := D.protocol.run_invariant (G := fun _ _ => True)
    (I := fun tr s ps => NoPushAfterFailedBump tr → Ledger tr s ps) ?_ ?_ ?_ ?_ h fun _ _ => trivial
  · exact ⟨hinv.1, hinv.2 hno⟩
  · refine fun _ => ⟨?_, nofun, nofun, nofun, fun j => ?_, fun j _ => ?_, nofun, nofun, nofun⟩
    · intro m hm
      rw [show (State.world ⟨w₀, []⟩).queue = [] from hempty] at hm
      exact (List.not_mem_nil hm).elim
    · simp [queued, hempty]
    · simp [queued, hempty]
  · intro tr s i n o k r w' p hr hob hL ht hp hpre hsem _
    refine ⟨trivial, fun hno => ledger_call ht hp hpre hsem (hL ?_) hno⟩
    exact fun s' i' m tr' hsuf => hno s' i' m tr' (hsuf.trans (List.suffix_cons _ _))
  · intro tr s n hr hob hL ha _ hno
    refine ledger_spawn hr hob.length ha (hL ?_)
    exact fun s' i' m tr' hsuf => hno s' i' m tr' (hsuf.trans (List.suffix_cons _ _))
  · intro tr s w' hr hob hL hd _ hno
    refine ledger_drift hd (hL ?_)
    exact fun s' i' m tr' hsuf => hno s' i' m tr' (hsuf.trans (List.suffix_cons _ _))

/-! ## 4. At most one token -/

/-- **One token per job**: the messages of a job and the runs holding it are at most one together,
    and no run pushes a job back and closes it. -/
def OneToken (tr : SysTrace) (s : SysState) : Prop :=
  (∀ j, queued s.world j + holders tr s j ≤ 1) ∧ ∀ i, ¬ (PushedBy tr i ∧ ClosedBy tr i)

/-- A run that holds the job has its token. -/
theorem token_of_holding (hob : D.protocol.Obeyed tr s) (hL : Ledger tr s (D.protocol.phases tr))
    {j : Uuid} (hp : (D.protocol.phases tr)[i]? = some p) (h : Holding tr s j i) :
    1 ≤ p.token j := by
  obtain ⟨hpop, hpush, t, ht, hend⟩ := h
  obtain ⟨v, hv⟩ := hL.popped i j p hp hpop
  have hwp := hob.obeys i t p ht hp
  cases hrest : t.rest with
  | ret a => rw [hrest] at hend; exact absurd trivial hend
  | raise e => rw [hrest] at hend; exact absurd trivial hend
  | call o k =>
    rw [hrest] at hwp
    have hpre : Phase.pre D.cfg p o := hwp.1
    rcases hv with rfl | hrun | rfl
    · exact Nat.le_of_eq (if_pos rfl).symm
    · rw [token_of_pre hrun hpre, if_pos rfl]
    · exact hpre.elim

theorem holders_le (hob : D.protocol.Obeyed tr s) (hL : Ledger tr s (D.protocol.phases tr))
    (j : Uuid) : holders tr s j ≤ tally (Phase.token j) (D.protocol.phases tr) := by
  unfold holders
  rw [hob.length]
  exact countP_le_tally fun i p hp hc => token_of_holding hob hL hp (by simpa using hc)

/-- **At most one live token per job**, in every run in which no push follows a failed bump of the
    same run. -/
theorem one_token (h : D.sys.Run w₀ tr s) (hempty : w₀.queue = [])
    (hno : NoPushAfterFailedBump tr) : OneToken tr s := by
  obtain ⟨hob, hL⟩ := ledger_run h hempty hno
  refine ⟨fun j => ?_, fun i ⟨hpush, hclosed⟩ => ?_⟩
  · have hle := holders_le hob hL j
    have hbound := hL.bound j
    omega
  · have hlt : i < (D.protocol.phases tr).length := by
      obtain ⟨e, he, m, hl⟩ := hpush
      rw [← hob.length]
      exact h.index_lt (P := fun l => ∃ m, l = .call i (.lpush m) (.ok ()))
        (fun l ⟨m, he⟩ => ⟨_, _, he⟩) ⟨e, he, m, hl⟩
    obtain ⟨p, hp⟩ : ∃ p, (D.protocol.phases tr)[i]? = some p := ⟨_, List.getElem?_eq_getElem hlt⟩
    rcases hL.pushed i p hp hpush with rfl | ⟨j, y, rfl⟩ <;>
      rcases hL.closed i _ hp hclosed with ⟨j', he⟩ | ⟨rows, he⟩ <;> cases he

end Ledger

/-- A failed command of a bump. -/
def failsBump : Label Op Ans PyExc TaskName → Bool
  | .call _ (.hincrby _ _) (.error _) => true
  | .call _ (.expire _ _) (.error _) => true
  | _ => false

/-- Where no bump fails, no push follows a failed one. -/
theorem noPush_of_bumps {tr : SysTrace} (h : tr.all (fun e => !failsBump e.2) = true) :
    NoPushAfterFailedBump tr := by
  intro s i m tr' hsuf ⟨e, he, o, x, hl, ho⟩
  have hmem : e ∈ tr := hsuf.subset (List.mem_cons_of_mem _ he)
  have hall := List.all_eq_true.mp h e hmem
  rw [hl] at hall
  cases o <;> first | exact ho | cases hall

namespace Sample

/-- The same as `requeue`, with Redis out of reach for one command, the count. -/
def requeueTwice : List Move :=
  [.spawn (.submit job url), .run 0, .run 0, .run 0, .spawn (.worker 0), .run 1, .run 1, .run 1,
    .fail 1 (.httpxConnectError []), .fail 1 (.redisConnectionError []), .run 1, .run 1, .run 1,
    .run 1]

theorem replays_requeueTwice : (deployment.replay (World.fresh 0) requeueTwice).isSome = true := by
  decide +kernel

def requeuedTwice : SysTrace × SysState :=
  (deployment.replay (World.fresh 0) requeueTwice).get replays_requeueTwice

theorem run_requeuedTwice :
    deployment.sys.Run (World.fresh 0) requeuedTwice.1 requeuedTwice.2 :=
  replay_get_run replays_requeueTwice

end Sample

/-- A counted failure hands on one token. -/
theorem one_token_requeued : OneToken Sample.requeued.1 Sample.requeued.2 :=
  one_token Sample.run_requeued rfl (noPush_of_bumps (by decide +kernel))

/-- **Two messages of one job**: the helper yields when its count fails, and so does its caller. -/
theorem two_tokens :
    Sample.deployment.sys.Run (World.fresh 0) Sample.requeuedTwice.1 Sample.requeuedTwice.2 ∧
      ¬ OneToken Sample.requeuedTwice.1 Sample.requeuedTwice.2 := by
  refine ⟨Sample.run_requeuedTwice, fun h => ?_⟩
  have htwo : queued Sample.requeuedTwice.2.world Sample.job = 2 := by decide +kernel
  have hle := h.1 Sample.job
  omega

end InvoiceOcr
