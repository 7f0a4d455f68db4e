/-
  File:      InvoiceOcr/Provenance.lean
  Subject:   WHERE A URL COMES FROM. A worker trusts its message; the URL in it is the one the API let
             through.

  * `Vetted` -- a request submitted the job with this URL, the URL passed the allowlist, the job's
    row has it;
  * `Phase.cargo` -- the job and URL a task carries; `cargo_next` -- STEP: from the queue, from its
    request, or what it carried;
  * **`url_provenance`** -- RUN: queue and tasks carry vetted URLs only, and the first URL a lifecycle
    requests is one of them.
-/
import InvoiceOcr.Footprint
import InvoiceOcr.Protocol
import InvoiceOcr.Replay

namespace InvoiceOcr

open PyJson Async

/-! ## 1. Vetted URLs -/

/-- The job was submitted with this URL, by one request only; the URL passed the allowlist there; the
    job's row, where it exists, has it. -/
structure Vetted (D : Deployment) (s : SysState) (j : Uuid) (u : Str) : Prop where
  submitted : TaskName.submit j u ∈ s.tasks.map (·.name)
  unique : ∀ u', TaskName.submit j u' ∈ s.tasks.map (·.name) → u' = u
  allowed : validateImageDomain D.cfg D.lib u = .ok ()
  row : ∀ r, s.world.jobs.find j = some r → r.imageUrl = u

/-- Task `i` has requested a URL. -/
def RequestedBy (tr : SysTrace) (i : Nat) : Prop :=
  Did (fun l => ∃ url r, l = .call i (.request url) r) tr

/-- Every queued message is read as a job with a vetted URL. -/
def QueueVetted (D : Deployment) (s : SysState) : Prop :=
  ∀ m ∈ s.world.queue, ∃ j u, decodeMessage m = some (j, .str u) ∧ Vetted D s j u

/-- The first request of every worker pass is for a vetted URL, that of the message it popped. -/
def FirstRequestVetted (D : Deployment) (tr : SysTrace) (s : SysState) : Prop :=
  ∀ i p url k, s.tasks[i]? = some ⟨.worker p, .call (.request url) k⟩ → ¬ RequestedBy tr i →
    ∃ j m, Did (fun l => l = .call i .brpop (.ok (some m))) tr ∧
      decodeMessage m = some (j, .str url) ∧ Vetted D s j url

/-! ## 2. What a request may insert -/

section Insert

variable {D : Deployment} {n : TaskName}

/-- A row is inserted by a request only, as PENDING, with the URL that passed its allowlist. -/
def InsertsOwn (D : Deployment) (n : TaskName) (o : Op) : Prop :=
  ∀ j status u, o = .insertJob j status u →
    n = .submit j u ∧ validateImageDomain D.cfg D.lib u = .ok ()

/-- The situations of the tasks that are no request. -/
def Phase.NoInsert (p : Phase) : Prop := ∀ j u, p ≠ .submitting j u

theorem noInsert_next {p : Phase} {o : Op} (hpre : Phase.pre D.cfg p o) (hp : p.NoInsert)
    (r : Except PyExc (Ans o)) : (Phase.next D.cfg p o r).NoInsert := by
  have hadv := advance hpre r
  generalize Phase.next D.cfg p o r = q at hadv
  intro j u heq
  subst heq
  cases hadv with
  | run _ hq => exact hq
  | sampled => exact hp _ _ rfl

theorem insertsOwn_of_obeys {α : Type} {Q : Except PyExc α → Phase → Prop} {q : Py α} {p : Phase}
    (hq : wp (monitor D.cfg) Q q p) (hp : p.NoInsert) : q.OnlyCalls (InsertsOwn D n) := by
  refine onlyCalls_of_wp (N := Phase.NoInsert) (fun p o hp hpre => ?_)
    (fun p o r hp hpre => noInsert_next hpre hp r) (fun _ _ _ => trivial) hq hp
  intro j status u heq
  subst heq
  exact absurd (Phase.pre_insertJob hpre).2 (hp j u)

theorem insertsOwn_submit (j : Uuid) (u : Str) :
    (submitReceipt D.cfg D.lib j u).OnlyCalls (InsertsOwn D (.submit j u)) := by
  have hpush : (pushToQueue j (.str u)).OnlyCalls (InsertsOwn D (.submit j u)) :=
    onlyCalls_mapped (o := .lpush _) nofun _
  have henqueue : (enqueue j u).OnlyCalls (InsertsOwn D (.submit j u)) := by
    refine onlyCalls_tryElse hpush (fun e => ?_) fun _ => trivial
    split <;> exact trivial
  have hdepth : (checkBackpressure D.cfg).OnlyCalls (InsertsOwn D (.submit j u)) := by
    refine onlyCalls_tryElse ?_ (fun _ => trivial) fun depth => ?_
    · exact onlyCalls_mapped (o := .llen) nofun _
    · split <;> exact trivial
  refine onlyCalls_tryElse (onlyCalls_bind hdepth fun _ => ?_) (fun e => ?_) fun _ => trivial
  · unfold validateAndPersist
    cases hu : validateImageDomain D.cfg D.lib u with
    | error e =>
      simp only
      split <;> exact trivial
    | ok _ =>
      refine onlyCalls_tryElse ?_ (fun e => ?_) fun _ => henqueue
      · refine onlyCalls_mapped (o := .insertJob _ _ _) ?_ _
        intro j' status u' he
        cases he
        exact ⟨rfl, hu⟩
      · split <;> exact trivial
  · split <;> exact trivial

theorem insertsOwn_boot (n : TaskName) : (D.boot n).OnlyCalls (InsertsOwn D n) := by
  cases n with
  | worker p => exact insertsOwn_of_obeys (obeys_iteration (D.worker p)) fun j u h => by simp at h
  | submit j u => exact onlyCalls_bind (insertsOwn_submit j u) fun _ => trivial
  | sweep => exact insertsOwn_of_obeys (obeys_sweep D.cfg) fun j u h => by simp at h
  | purge => exact insertsOwn_of_obeys (obeys_purge D.cfg) fun j u h => by simp at h

/-- One request a job. -/
theorem submit_unique {w₀ : World} {tr : SysTrace} {s : SysState} (h : D.sys.Run w₀ tr s) {j : Uuid}
    {u u' : Str} (hu : TaskName.submit j u ∈ s.tasks.map (·.name))
    (hu' : TaskName.submit j u' ∈ s.tasks.map (·.name)) : u = u' := by
  induction h with
  | start => cases hu
  | step h hs ih =>
    cases hs with
    | call ht _ => rw [names_set ht] at hu hu'; exact ih hu hu'
    | drift => exact ih hu hu'
    | @spawn n ha =>
      rw [List.map_append, List.mem_append] at hu hu'
      rcases hu with hu | hu <;> rcases hu' with hu' | hu'
      · exact ih hu hu'
      · cases List.mem_singleton.mp hu'
        exact absurd hu (ha u)
      · cases List.mem_singleton.mp hu
        exact absurd hu' (ha u')
      · cases List.mem_singleton.mp hu
        cases List.mem_singleton.mp hu'
        rfl

end Insert

/-! ## 3. A vetted URL stays vetted -/

section Stable

variable {D : Deployment} {w₀ w' : World} {tr : SysTrace} {s : SysState} {i : Nat} {n : TaskName}
  {o : Op} {k : Except PyExc (Ans o) → Py Unit} {r : Except PyExc (Ans o)} {j : Uuid} {u : Str}

/-- A row that a call leaves has the URL it had, or the one it is inserted with. -/
theorem imageUrl_of_sem (hsem : Sem s.world o r w') {row' : JobRow}
    (hrow : w'.jobs.find j = some row') :
    (∃ row, s.world.jobs.find j = some row ∧ row.imageUrl = row'.imageUrl) ∨
      ∃ status, o = .insertJob j status row'.imageUrl := by
  have hchange := rowChange_of_sem hsem j
  cases hchange with
  | same h => exact Or.inl ⟨row', h ▸ hrow, rfl⟩
  | inserted h h' =>
    cases h'.symm.trans hrow
    exact Or.inr ⟨_, rfl⟩
  | updated h =>
    obtain ⟨row, hfind, rfl⟩ := Option.map_eq_some_iff.mp (h.symm.trans hrow)
    exact Or.inl ⟨row, hfind, rfl⟩
  | touched h =>
    obtain ⟨row, hfind, rfl⟩ := Option.map_eq_some_iff.mp (h.symm.trans hrow)
    exact Or.inl ⟨row, hfind, rfl⟩
  | purged h =>
    obtain ⟨hfind, -⟩ := Option.filter_eq_some_iff.mp (h.symm.trans hrow)
    exact Or.inl ⟨row', hfind, rfl⟩

theorem vetted_call (hr : D.sys.Run w₀ tr s) (ht : s.tasks[i]? = some ⟨n, .call o k⟩)
    (hsem : Sem s.world o r w') (h : Vetted D s j u) :
    Vetted D ⟨w', s.tasks.set i ⟨n, k r⟩⟩ j u where
  submitted := by rw [names_set ht]; exact h.submitted
  unique := by rw [names_set ht]; exact h.unique
  allowed := h.allowed
  row row' hrow := by
    rcases imageUrl_of_sem hsem hrow with ⟨row, hfind, he⟩ | ⟨status, rfl⟩
    · rw [← he]
      exact h.row row hfind
    · have hown : InsertsOwn D n (.insertJob j status row'.imageUrl) :=
        (hr.onlyCalls insertsOwn_boot ht).1
      have hname := (hown j status _ rfl).1
      refine h.unique _ (List.mem_map.mpr ⟨_, List.mem_of_getElem? ht, hname⟩)

theorem vetted_spawn (ha : fresh (s.tasks.map (·.name)) n) {b : Py Unit} (h : Vetted D s j u) :
    Vetted D ⟨s.world, s.tasks ++ [⟨n, b⟩]⟩ j u where
  submitted := by
    rw [List.map_append]
    exact List.mem_append_left _ h.submitted
  unique u' hu' := by
    rw [List.map_append, List.mem_append] at hu'
    rcases hu' with hu' | hu'
    · exact h.unique u' hu'
    · cases List.mem_singleton.mp hu'
      exact absurd h.submitted (ha u)
  allowed := h.allowed
  row := h.row

theorem vetted_drift (hd : Drift s.world w') (h : Vetted D s j u) : Vetted D ⟨w', s.tasks⟩ j u where
  submitted := h.submitted
  unique := h.unique
  allowed := h.allowed
  row row hrow := h.row row (by rw [← jobs_of_drift hd]; exact hrow)

/-- The row a request has just inserted. -/
theorem vetted_insert (hr : D.sys.Run w₀ tr s) {status : JobStatus}
    {k : Except PyExc Unit → Py Unit}
    (ht : s.tasks[i]? = some ⟨n, .call (.insertJob j status u) k⟩)
    (hsem : Sem s.world (.insertJob j status u) (.ok ()) w') :
    Vetted D ⟨w', s.tasks.set i ⟨n, k (.ok ())⟩⟩ j u := by
  have hown : InsertsOwn D n (.insertJob j status u) := (hr.onlyCalls insertsOwn_boot ht).1
  obtain ⟨rfl, hallowed⟩ := hown j status u rfl
  have hname : TaskName.submit j u ∈ s.tasks.map (·.name) :=
    List.mem_map.mpr ⟨_, List.mem_of_getElem? ht, rfl⟩
  refine ⟨by rw [names_set ht]; exact hname, fun u' hu' => ?_, hallowed, fun row hrow => ?_⟩
  · rw [names_set ht] at hu'
    exact submit_unique hr hu' hname
  · obtain ⟨t, hinsert, rfl⟩ := hsem
    have hfind := (Relational.Table.find_insert hinsert j).symm.trans hrow
    rw [if_pos rfl] at hfind
    cases hfind
    rfl

end Stable

/-! ## 4. What tasks carry -/

/-- The job and the URL a task carries. -/
def Phase.cargo : Phase → Option (Uuid × Json)
  | .unread j v => some (j, v)
  | .live j v => some (j, v)
  | .expiring j v => some (j, v)
  | .yielding j v _ => some (j, v)
  | .touched j v _ => some (j, v)
  | .inserted j u => some (j, .str u)
  | _ => none

section Cargo

variable {D : Deployment} {w₀ w' : World} {tr : SysTrace} {s : SysState} {i : Nat} {n : TaskName}
  {o : Op} {k : Except PyExc (Ans o) → Py Unit} {r : Except PyExc (Ans o)} {p : Phase}
  {ps : List Phase} {j : Uuid} {v : Json}

/-- A run that goes on carrying something was carrying it. -/
theorem cargo_of_work {q : Phase} (hw : Work D.cfg j v p o r q) {c : Uuid × Json} (h : q.cargo = some c) :
    p.cargo = some c := by
  cases hw with
  | touched hp => rcases hp with rfl | ⟨rfl, rfl⟩ <;> exact h
  | untouched => cases h
  | closed => cases h
  | pushed => cases h
  | unpushed => cases h
  | overCount => cases h
  | overExpiry => cases h
  | _ => exact h

/-- **Where a task's cargo comes from**: it had it, it popped it, it inserted its row. -/
theorem cargo_next (hpre : Phase.pre D.cfg p o) (h : (Phase.next D.cfg p o r).cargo = some (j, v)) :
    p.cargo = some (j, v) ∨
      (∃ m, o = .brpop ∧ HEq r (Except.ok (some m) : Except PyExc (Option Str)) ∧
        decodeMessage m = some (j, v)) ∨
      ∃ status u, o = .insertJob j status u ∧ HEq r (Except.ok () : Except PyExc Unit) ∧
        v = .str u := by
  have hadv := advance hpre r
  generalize hq : Phase.next D.cfg p o r = q at hadv h
  cases hadv with
  | run hp => exact Or.inl (cargo_of_work (hq ▸ work hp hpre r) h)
  | popped hm => cases h; exact Or.inr (Or.inl ⟨_, rfl, HEq.rfl, hm⟩)
  | read => cases h; exact Or.inl rfl
  | readFailed => cases h; exact Or.inl rfl
  | inserted => cases h; exact Or.inr (Or.inr ⟨_, _, rfl, HEq.rfl, rfl⟩)
  | _ => cases h

/-- **Queue and tasks carry vetted URLs only.** -/
structure Chain (D : Deployment) (s : SysState) (ps : List Phase) : Prop where
  queue : ∀ m ∈ s.world.queue, ∃ j u, m = message j (.str u) ∧ Vetted D s j u
  cargo : ∀ p ∈ ps, ∀ j v, p.cargo = some (j, v) → ∃ u, v = .str u ∧ Vetted D s j u

/-- STEP: a call keeps the chain. -/
theorem chain_call (hr : D.sys.Run w₀ tr s) (ht : s.tasks[i]? = some ⟨n, .call o k⟩)
    (hp : ps[i]? = some p) (hpre : Phase.pre D.cfg p o) (hsem : Sem s.world o r w')
    (h : Chain D s ps) :
    Chain D ⟨w', s.tasks.set i ⟨n, k r⟩⟩ (ps.set i (Phase.next D.cfg p o r)) := by
  have hstay : ∀ {j u}, Vetted D s j u → Vetted D ⟨w', s.tasks.set i ⟨n, k r⟩⟩ j u :=
    fun hv => vetted_call hr ht hsem hv
  have hcargo := h.cargo p (List.mem_of_getElem? hp)
  constructor
  case queue =>
    intro m hm
    have hold : m ∈ s.world.queue → ∃ j u, m = message j (.str u) ∧
        Vetted D ⟨w', s.tasks.set i ⟨n, k r⟩⟩ j u := by
      intro hm
      obtain ⟨j, u, he, hv⟩ := h.queue m hm
      exact ⟨j, u, he, hstay hv⟩
    have hchange := queueChange_of_sem hsem
    cases hchange with
    | same hq => exact hold (hq ▸ hm)
    | popped hq => exact hold (by rw [hq]; exact List.mem_append_left _ hm)
    | @pushed m' hq =>
      rcases List.mem_cons.mp (hq ▸ hm) with rfl | hm
      · rcases Phase.pre_lpush hpre with ⟨j, v, y, rfl, rfl⟩ | ⟨j, u, rfl, rfl⟩
        · obtain ⟨u, rfl, hv⟩ := hcargo j v rfl
          exact ⟨j, u, rfl, hstay hv⟩
        · obtain ⟨u', he, hv⟩ := hcargo j (.str u) rfl
          cases he
          exact ⟨j, u, rfl, hstay hv⟩
      · exact hold hm
  case cargo =>
    intro q hq j v hc
    rcases List.mem_or_eq_of_mem_set hq with hq | rfl
    · obtain ⟨u, he, hv⟩ := h.cargo q hq j v hc
      exact ⟨u, he, hstay hv⟩
    · rcases cargo_next hpre hc with hc | ⟨m, rfl, hm, hd⟩ | ⟨status, u, rfl, hi, rfl⟩
      · obtain ⟨u, he, hv⟩ := hcargo j v hc
        exact ⟨u, he, hstay hv⟩
      · cases hm
        obtain ⟨q, hq', -⟩ := hsem
        obtain ⟨j', u, rfl, hv⟩ := h.queue m (by rw [hq']; simp)
        cases (decodeMessage_text j' u).symm.trans hd
        exact ⟨u, rfl, hstay hv⟩
      · cases hi
        exact ⟨u, rfl, vetted_insert hr ht hsem⟩

/-- RUN: the chain of every run from an empty queue. -/
theorem chain_run (h : D.sys.Run w₀ tr s) (hempty : w₀.queue = []) :
    Chain D s (D.protocol.phases tr) := by
  have hinv := D.protocol.run_invariant (G := fun _ _ => True)
    (I := fun _ s ps => Chain D s ps) ?_ ?_ ?_ ?_ h fun _ _ => trivial
  · exact hinv.2
  · refine ⟨fun m hm => ?_, nofun⟩
    rw [show (State.world ⟨w₀, []⟩).queue = [] from hempty] at hm
    exact (List.not_mem_nil hm).elim
  · exact fun hr _ hI ht hp hpre hsem _ => ⟨trivial, chain_call hr ht hp hpre hsem hI⟩
  · intro tr s n _ _ hI ha _
    refine ⟨fun m hm => ?_, fun p hp j v hc => ?_⟩
    · obtain ⟨j, u, he, hv⟩ := hI.queue m hm
      exact ⟨j, u, he, vetted_spawn ha hv⟩
    · rcases List.mem_append.mp hp with hp | hp
      · obtain ⟨u, he, hv⟩ := hI.cargo p hp j v hc
        exact ⟨u, he, vetted_spawn ha hv⟩
      · cases List.mem_singleton.mp hp
        cases n <;> cases hc
  · intro tr s w' _ _ hI hd _
    refine ⟨fun m hm => ?_, fun p hp j v hc => ?_⟩
    · obtain ⟨j, u, he, hv⟩ := hI.queue m (queue_of_drift hd ▸ hm)
      exact ⟨j, u, he, vetted_drift hd hv⟩
    · obtain ⟨u, he, hv⟩ := hI.cargo p hp j v hc
      exact ⟨u, he, vetted_drift hd hv⟩

end Cargo

/-! ## 5. The requests of a pass -/

/-- A pass by what it will request: with nothing popped; with the URL it popped; with the target of a
    redirect, and how many more it would follow; nothing more. -/
inductive Errand where
  | empty
  | carrying (imageUrl : Json)
  | redirected (fuel : Nat) (url : Str)
  | spent

namespace Errand

/-- What a response leaves to request. -/
def followed (lib : Externals) (fuel : Nat) (url : Str) (resp : HttpResponse) : Errand :=
  match resp.redirect?, fuel with
  | some location, fuel + 1 =>
    match lib.redirectUrl url location with
    | .ok next => .redirected fuel next
    | .error _ => .spent
  | _, _ => .spent

/-- The first request is for the URL that was popped; a redirect is followed at once. -/
def pre : Errand → Op → Prop
  | .carrying v, .request url => v = .str url
  | .redirected _ url, o => o = .request url
  | _, o => o.NoRequest

/-- What a pop leaves a pass with. -/
def loaded : Option (Uuid × Json) → Errand
  | some (_, v) => .carrying v
  | none => .empty

/-- What an answer leaves to request. -/
def answered (lib : Externals) (fuel : Nat) (url : Str) : Except PyExc HttpResponse → Errand
  | .ok resp => followed lib fuel url resp
  | .error _ => .spent

def next (lib : Externals) : Errand → (o : Op) → Except PyExc (Ans o) → Errand
  | .empty, .brpop, r => loaded (decodedPop r)
  | .carrying _, .request url, .ok resp => followed lib maxRedirects url resp
  | .redirected fuel _, .request url, .ok resp => followed lib fuel url resp
  | .carrying _, .request _, .error _ => .spent
  | .redirected _ _, .request _, .error _ => .spent
  | e, _, _ => e

/-- Past the pop, no redirect to follow. -/
def Past : Errand → Prop
  | .carrying _ => True
  | .spent => True
  | _ => False

/-- No redirect is left to follow. -/
def Settled : Errand → Prop
  | .redirected _ _ => False
  | _ => True

end Errand

/-- The monitor of the requests. -/
def errands (lib : Externals) : Monitor Op Ans PyExc Errand where
  pre := Errand.pre
  rely _ _ _ := True
  next := Errand.next lib

section Errands

variable {wk : Worker} {j : Uuid} {v : Json} {lib : Externals}

theorem minds_requests : MindsRequests (errands lib) Errand.Past := by
  intro e he o ho
  cases e with
  | carrying v => cases o <;> first | exact ⟨trivial, fun _ => rfl⟩ | exact ho.elim
  | spent => cases o <;> first | exact ⟨trivial, fun _ => rfl⟩ | exact ho.elim
  | _ => exact he.elim

theorem redirected_or_spent (fuel : Nat) (url : Str) (resp : HttpResponse) :
    Errand.followed lib fuel url resp = .spent ∨
      ∃ location f next, resp.redirect? = some location ∧ fuel = f + 1 ∧
        lib.redirectUrl url location = .ok next ∧
          Errand.followed lib fuel url resp = .redirected f next := by
  unfold Errand.followed
  split
  · next location f hredirect =>
    cases hnext : lib.redirectUrl url location with
    | ok next => exact Or.inr ⟨location, f, next, hredirect, rfl, hnext, rfl⟩
    | error x => exact Or.inl rfl
  · exact Or.inl rfl

/-- What a GET does with its first response. -/
theorem errand_answered {fuel : Nat} {url : Str} {e : Errand} (hpre : (errands lib).pre e (.request url))
    (hok : ∀ resp, Errand.next lib e (.request url) (.ok resp) = Errand.followed lib fuel url resp)
    (herr : ∀ x, Errand.next lib e (.request url) (.error x) = .spent) :
    wp (errands lib) (fun _ e => e = .spent) (httpxGet lib fuel url) e := by
  induction fuel generalizing url e with
  | zero =>
    unfold httpxGet
    refine wp_bind_of (R := fun _ e => e = Errand.spent) ((wp_await _ _).mpr ⟨hpre, fun r _ => ?_⟩)
      (fun resp e he => ?_) fun _ _ he => he
    · cases r with
      | error x => exact herr x
      | ok resp =>
        refine (hok resp).trans ?_
        unfold Errand.followed
        split
        · next h => cases h
        · rfl
    · cases resp.redirect? <;> exact he
  | succ fuel ih =>
    unfold httpxGet
    refine wp_bind_of (R := fun x e => e = Errand.answered lib (fuel + 1) url x)
      ((wp_await _ _).mpr ⟨hpre, fun r _ => ?_⟩) (fun resp e he => ?_) fun _ _ he => he
    · cases r with
      | error x => exact herr x
      | ok resp => exact hok resp
    · subst he
      simp only [Errand.answered, Errand.followed]
      cases resp.redirect? with
      | none => exact rfl
      | some location =>
        refine (wp_bind _ _ _).mpr ((wp_ofExcept _ _).mpr ?_)
        simp only
        cases lib.redirectUrl url location with
        | error x => exact rfl
        | ok next => exact ih (e := .redirected fuel next) rfl (fun _ => rfl) fun _ => rfl

/-- The download requests what is carried and what it is redirected to. -/
theorem errand_download :
    wp (errands wk.lib) (fun _ e => e.Past) (downloadImage wk.cfg wk.lib v) (.carrying v) := by
  cases v with
  | str url =>
    have hget : wp (errands wk.lib) (fun _ e => e = .spent) (httpxGet wk.lib maxRedirects url)
        (.carrying (.str url)) := errand_answered rfl (fun _ => rfl) fun _ => rfl
    refine wp_tryElse_of (R := fun _ e => e = Errand.spent) ?_ (fun _ e he => he ▸ trivial)
      fun _ e he => he ▸ trivial
    refine wp_bind_of hget (fun resp e he => ?_) fun _ e he => he
    exact (wp_ofExcept _ _).mpr he
  | _ => exact trivial

theorem errand_iteration : wp (errands wk.lib) (fun _ e => e.Settled)
    (workerIteration jsonDepth (executeTaskLifecycle wk)) .empty := by
  have hpass : wp (errands wk.lib) (fun _ e => e = .empty ∨ e.Past)
      (workerIteration jsonDepth (executeTaskLifecycle wk)) .empty :=
    @iteration_around_download _ _ _ wk minds_requests .empty Errand.loaded trivial (fun _ => rfl)
      (fun _ => trivial) fun m => errand_download
  refine wp_mono (fun _ e he => ?_) hpass
  rcases he with rfl | he
  · exact trivial
  · cases e <;> first | exact trivial | exact he.elim

end Errands

/-- Requests and daemons make no request of their own. -/
theorem errand_noRequest {α : Type} {lib : Externals} {p : Py α} (hp : p.OnlyCalls Op.IsStorage) :
    wp (errands lib) (fun _ e => e.Settled) p .spent :=
  wp_mono (fun _ _ h => h ▸ trivial)
    (wp_noRequest minds_requests (noRequest_of_storage hp) (s := .spent) trivial)

/-- **The protocol of the requests.** Only worker passes make any. -/
def Deployment.errandProtocol (D : Deployment) : D.sys.Protocol Errand where
  toMonitor := errands D.lib
  start
    | .worker _ => .empty
    | _ => .spent
  final _ e := e.Settled
  boots
    | .worker p => @errand_iteration (D.worker p)
    | .submit _ u => errand_noRequest (onlyCalls_bind (storage_submit _ u) fun _ => trivial)
    | .sweep => errand_noRequest storage_sweep
    | .purge => errand_noRequest storage_purge

section First

variable {D : Deployment} {w₀ : World} {tr : SysTrace} {s : SysState}

/-- What a pass carries it has popped, with a vetted URL; a pass that was redirected has made a
    request. -/
structure Errands (D : Deployment) (tr : SysTrace) (s : SysState) (es : List Errand) : Prop where
  carrying : ∀ i v, es[i]? = some (.carrying v) → ∃ j m u,
    Did (fun l => l = .call i .brpop (.ok (some m))) tr ∧ decodeMessage m = some (j, .str u) ∧
      v = .str u ∧ Vetted D s j u
  redirected : ∀ i fuel url, es[i]? = some (.redirected fuel url) → RequestedBy tr i

/-- What a pass carries it was carrying, or has popped just now. -/
theorem carrying_next {lib : Externals} {e : Errand} {o : Op} {r : Except PyExc (Ans o)} {v : Json}
    (h : Errand.next lib e o r = .carrying v) : e = .carrying v ∨
      ∃ m j, o = .brpop ∧ HEq r (Except.ok (some m) : Except PyExc (Option Str)) ∧
        decodeMessage m = some (j, v) := by
  have hfollowed : ∀ fuel url resp, Errand.followed lib fuel url resp ≠ .carrying v := by
    intro fuel url resp he
    rcases @redirected_or_spent lib fuel url resp with ho | ⟨_, _, _, _, _, _, ho⟩ <;>
      rw [ho] at he <;> cases he
  cases e with
  | spent => cases o <;> cases h
  | carrying v' =>
    cases o <;> try (cases h; exact Or.inl rfl)
    cases r with
    | error x => cases h
    | ok resp => exact absurd h (hfollowed _ _ _)
  | redirected fuel url =>
    cases o <;> try cases h
    cases r with
    | error x => cases h
    | ok resp => exact absurd h (hfollowed _ _ _)
  | empty =>
    cases o <;> try cases h
    cases r with
    | error x => cases h
    | ok val =>
      cases val with
      | none => cases h
      | some m =>
        have hpop : Errand.loaded (decodeMessage m) = .carrying v := h
        cases hd : decodeMessage m with
        | none => rw [hd] at hpop; cases hpop
        | some x =>
          rw [hd] at hpop
          cases hpop
          exact Or.inr ⟨m, x.1, rfl, HEq.rfl, hd⟩

/-- A pass is redirected by the answer to a request. -/
theorem redirected_next {lib : Externals} {e : Errand} {o : Op} {r : Except PyExc (Ans o)}
    {fuel : Nat} {url : Str} (h : Errand.next lib e o r = .redirected fuel url) :
    (∃ url', o = .request url') ∨ e = .redirected fuel url := by
  cases e with
  | spent => cases o <;> cases h
  | redirected fuel' url' =>
    cases o <;> first | exact Or.inl ⟨_, rfl⟩ | exact Or.inr h
  | carrying v => cases o <;> first | exact Or.inl ⟨_, rfl⟩ | cases h
  | empty =>
    cases o with
    | brpop =>
      have hload : ∀ m, Errand.loaded m ≠ .redirected fuel url := by
        intro m
        cases m <;> nofun
      exact absurd h (hload _)
    | _ => cases h

theorem errands_call {i : Nat} {n : TaskName} {o : Op} {k : Except PyExc (Ans o) → Py Unit}
    {r : Except PyExc (Ans o)} {w' : World} {e : Errand} {es : List Errand}
    (hr : D.sys.Run w₀ tr s) (hempty : w₀.queue = []) (ht : s.tasks[i]? = some ⟨n, .call o k⟩)
    (he : es[i]? = some e) (hsem : Sem s.world o r w') (hI : Errands D tr s es) :
    Errands D ((s, .call i o r) :: tr) ⟨w', s.tasks.set i ⟨n, k r⟩⟩
      (es.set i (Errand.next D.lib e o r)) where
  carrying m v hm := by
    have hold : es[m]? = some (.carrying v) → ∃ j msg u,
        Did (fun l => l = .call m .brpop (.ok (some msg))) ((s, .call i o r) :: tr) ∧
          decodeMessage msg = some (j, .str u) ∧ v = .str u ∧
            Vetted D ⟨w', s.tasks.set i ⟨n, k r⟩⟩ j u := by
      intro hm
      obtain ⟨j, msg, u, hd, hdec, hv, hvet⟩ := hI.carrying m v hm
      exact ⟨j, msg, u, did_cons.mpr (Or.inr hd), hdec, hv, vetted_call hr ht hsem hvet⟩
    rcases getElem?_set_cases hm with ⟨rfl, hnew⟩ | ⟨_, hm⟩
    · rcases carrying_next hnew.symm with rfl | ⟨msg, j, rfl, hres, hdec⟩
      · exact hold he
      · cases hres
        have hmem : msg ∈ s.world.queue := by
          obtain ⟨q, hq, -⟩ := hsem
          rw [hq]
          simp
        obtain ⟨j', u, rfl, hvet⟩ := (chain_run hr hempty).queue msg hmem
        cases (decodeMessage_text j' u).symm.trans hdec
        exact ⟨j, _, u, did_cons.mpr (Or.inl rfl), hdec, rfl, vetted_call hr ht hsem hvet⟩
    · exact hold hm
  redirected m fuel url hm := by
    rcases getElem?_set_cases hm with ⟨rfl, hnew⟩ | ⟨_, hm⟩
    · rcases redirected_next hnew.symm with ⟨url', rfl⟩ | rfl
      · exact did_cons.mpr (Or.inl ⟨url', r, rfl⟩)
      · exact did_cons.mpr (Or.inr (hI.redirected m fuel url he))
    · exact did_cons.mpr (Or.inr (hI.redirected m fuel url hm))

theorem errands_run (h : D.sys.Run w₀ tr s) (hempty : w₀.queue = []) :
    D.errandProtocol.Obeyed tr s ∧ Errands D tr s (D.errandProtocol.phases tr) := by
  refine D.errandProtocol.run_invariant (G := fun _ _ => True)
    (I := fun tr s es => Errands D tr s es) ⟨nofun, nofun⟩ ?_ ?_ ?_ h fun _ _ => trivial
  · intro tr s i n o k r w' e hr _ hI ht he _ hsem _
    exact ⟨trivial, errands_call hr hempty ht he hsem hI⟩
  · intro tr s n hr hob hI ha _
    refine ⟨fun i v hi => ?_, fun i fuel url hi => ?_⟩
    · rcases getElem?_append_cases hi with ⟨_, hnew⟩ | hi
      · cases n <;> cases hnew
      · obtain ⟨j, m, u, hd, hdec, hv, hvet⟩ := hI.carrying i v hi
        exact ⟨j, m, u, did_cons.mpr (Or.inr hd), hdec, hv, vetted_spawn ha hvet⟩
    · rcases getElem?_append_cases hi with ⟨_, hnew⟩ | hi
      · cases n <;> cases hnew
      · exact did_cons.mpr (Or.inr (hI.redirected i fuel url hi))
  · intro tr s w' _ _ hI hd _
    refine ⟨fun i v hi => ?_, fun i fuel url hi => ?_⟩
    · obtain ⟨j, m, u, hd', hdec, hv, hvet⟩ := hI.carrying i v hi
      exact ⟨j, m, u, did_cons.mpr (Or.inr hd'), hdec, hv, vetted_drift hd hvet⟩
    · exact did_cons.mpr (Or.inr (hI.redirected i fuel url hi))

/-- **URL provenance**: every queued message carries the URL that passed the allowlist when its job
    was submitted, and that is the URL a lifecycle requests first. -/
theorem url_provenance (h : D.sys.Run w₀ tr s) (hempty : w₀.queue = []) :
    QueueVetted D s ∧ FirstRequestVetted D tr s := by
  refine ⟨fun m hm => ?_, fun i p url k ht hno => ?_⟩
  · obtain ⟨j, u, rfl, hvet⟩ := (chain_run h hempty).queue m hm
    exact ⟨j, u, decodeMessage_text j u, hvet⟩
  · obtain ⟨hob, hI⟩ := errands_run h hempty
    obtain ⟨e, he, hpre⟩ := hob.permitted ht
    cases e with
    | empty => exact hpre.elim
    | spent => exact hpre.elim
    | redirected fuel url' => exact absurd (hI.redirected i fuel url' he) hno
    | carrying v =>
      obtain ⟨j, m, u, hd, hdec, rfl, hvet⟩ := hI.carrying i v he
      cases (show Json.str u = .str url from hpre)
      exact ⟨j, m, hd, hdec, hvet⟩

end First

/-- A job handed back once is still queued with its URL. -/
theorem url_provenance_requeued : QueueVetted Sample.deployment Sample.requeued.2 ∧
    FirstRequestVetted Sample.deployment Sample.requeued.1 Sample.requeued.2 :=
  url_provenance Sample.run_requeued rfl

end InvoiceOcr
