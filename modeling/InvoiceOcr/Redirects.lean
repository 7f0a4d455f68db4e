/-
  File:      InvoiceOcr/Redirects.lean
  Subject:   WHO IS CONTACTED FOR AN IMAGE. The allowlist is asked once, about the submitted URL; the
             GET follows redirects.

  * `redirects` -- the targets of the redirects that were followed, read off the trace;
  * `Chased` -- the invariant: a request is for a vetted URL or for such a target, and each target is
    requested at once;
  * **`requests_allowed_iff`** -- RUN: so only allowed hosts are contacted exactly when every redirect
    that is followed leads to one;
  * `redirect_escapes` -- a redirect to the metadata service.
-/
import InvoiceOcr.Provenance
import InvoiceOcr.Transparency

namespace InvoiceOcr

open PyJson Async

/-! ## 1. Requests and redirects of a run -/

/-- The hostname passes the test of `_validate_image_domain`. -/
def Allowed (D : Deployment) (url : Str) : Prop := validateImageDomain D.cfg D.lib url = .ok ()

/-- An answered request, by its task and its URL. -/
def requestOf : Label Op Ans PyExc TaskName → Option (Nat × Str)
  | .call i (.request url) _ => some (i, url)
  | _ => none

def requests (tr : SysTrace) : List (Nat × Str) := tr.filterMap fun e => requestOf e.2

/-- How many requests of task `i` were answered. -/
def requestCount (i : Nat) (tr : SysTrace) : Nat := (requests tr).countP fun x => x.1 = i

/-- The redirect an answer is, if httpx follows it: the task and the next URL. -/
def redirectOf (lib : Externals) (tr : SysTrace) : Label Op Ans PyExc TaskName → Option (Nat × Str)
  | .call i (.request url) (.ok resp) =>
    if requestCount i tr < maxRedirects then
      match resp.redirect? with
      | some location =>
        match lib.redirectUrl url location with
        | .ok next => some (i, next)
        | .error _ => none
      | none => none
    else none
  | _ => none

/-- **The redirects that were followed**, the latest first. -/
def redirects (lib : Externals) : SysTrace → List (Nat × Str)
  | [] => []
  | (_, l) :: tr => (redirectOf lib tr l).toList ++ redirects lib tr

/-- Task `i` has requested the URL: the answer is there, or the request is under way. -/
def Requested (tr : SysTrace) (s : SysState) (i : Nat) (url : Str) : Prop :=
  (i, url) ∈ requests tr ∨ ∃ (n : TaskName) (k : Except PyExc HttpResponse → Py Unit),
    s.tasks[i]? = some ⟨n, .call (.request url) k⟩

/-- **Task `i` contacts allowed hosts only.** A worker pass is on behalf of one job. -/
def RequestsAllowed (D : Deployment) (tr : SysTrace) (s : SysState) (i : Nat) : Prop :=
  ∀ url, Requested tr s i url → Allowed D url

/-- Every redirect that task `i` followed leads to an allowed host. -/
def RedirectsAllowed (D : Deployment) (tr : SysTrace) (i : Nat) : Prop :=
  ∀ url, (i, url) ∈ redirects D.lib tr → Allowed D url

/-! ## 2. Requests follow redirects -/

section Chase

variable {D : Deployment} {w₀ w' : World} {tr : SysTrace} {s : SysState} {i : Nat} {n : TaskName}
  {o : Op} {k : Except PyExc (Ans o) → Py Unit} {r : Except PyExc (Ans o)} {e : Errand}
  {es : List Errand}

/-- **The chase of every task**: what it has requested so far, and what it is about to. -/
structure Chased (D : Deployment) (tr : SysTrace) (es : List Errand) : Prop where
  fresh : ∀ i : Nat, (es[i]? = some .empty ∨ ∃ v, es[i]? = some (.carrying v)) → requestCount i tr = 0
  redirected : ∀ (i : Nat) fuel url, es[i]? = some (.redirected fuel url) →
    fuel + requestCount i tr = maxRedirects ∧ (i, url) ∈ redirects D.lib tr
  asked : ∀ x ∈ requests tr, Allowed D x.2 ∨ x ∈ redirects D.lib tr
  followed : ∀ x ∈ redirects D.lib tr, x ∈ requests tr ∨ ∃ fuel, es[x.1]? = some (.redirected fuel x.2)

theorem requests_cons (l : Label Op Ans PyExc TaskName) :
    requests ((s, l) :: tr) = (requestOf l).toList ++ requests tr := by
  unfold requests
  rw [List.filterMap_cons]
  cases requestOf l <;> rfl

theorem requestCount_other {l : Label Op Ans PyExc TaskName}
    (hl : ∀ x, requestOf l = some x → x.1 ≠ i) :
    requestCount i ((s, l) :: tr) = requestCount i tr := by
  unfold requestCount
  rw [requests_cons, List.countP_append]
  cases hreq : requestOf l with
  | none => exact Nat.zero_add _
  | some x =>
    have hne : decide (x.1 = i) = false := decide_eq_false (hl x hreq)
    rw [Option.toList_some, List.countP_singleton, hne]
    exact Nat.zero_add _

theorem requestCount_self {url : Str} {r : Except PyExc HttpResponse} :
    requestCount i ((s, .call i (.request url) r) :: tr) = requestCount i tr + 1 := by
  unfold requestCount
  rw [requests_cons, List.countP_append]
  show List.countP _ [(i, url)] + _ = _
  rw [List.countP_singleton, if_pos (decide_eq_true rfl), Nat.add_comm]

/-- A task without a request has none counted. -/
theorem requestCount_zero (h : ¬ RequestedBy tr i) : requestCount i tr = 0 := by
  unfold requestCount
  refine List.countP_eq_zero.mpr fun x hx hi => h ?_
  obtain ⟨e, he, hreq⟩ := List.mem_filterMap.mp hx
  refine ⟨e, he, ?_⟩
  obtain ⟨s', l⟩ := e
  cases l with
  | call m o r =>
    cases o <;> try cases hreq
    have hm : m = i := of_decide_eq_true hi
    exact ⟨_, r, by rw [hm]⟩
  | spawn n => cases hreq
  | drift => cases hreq

/-- **The errand of a task follows the redirects of the trace.** -/
theorem redirectOf_followed {lib : Externals} {fuel : Nat} {url : Str} {resp : HttpResponse}
    (hfuel : fuel + requestCount i tr = maxRedirects) (x : Nat × Str) :
    redirectOf lib tr (.call i (.request url) (.ok resp)) = some x ↔
      x.1 = i ∧ ∃ f, f + 1 = fuel ∧ Errand.followed lib fuel url resp = .redirected f x.2 := by
  simp only [redirectOf, Errand.followed]
  obtain ⟨m, next⟩ := x
  cases fuel with
  | zero =>
    rw [if_neg (by omega)]
    refine ⟨fun h => by simp at h, fun hpair => ?_⟩
    obtain ⟨-, f, hf, -⟩ := hpair
    omega
  | succ fuel =>
    rw [if_pos (by omega)]
    cases resp.redirect? with
    | none =>
      refine ⟨fun h => by simp at h, fun hpair => ?_⟩
      obtain ⟨-, f, -, he⟩ := hpair
      simp at he
    | some location =>
      simp only
      cases lib.redirectUrl url location with
      | error x =>
        refine ⟨fun h => by simp at h, fun hpair => ?_⟩
        obtain ⟨-, f, -, he⟩ := hpair
        simp at he
      | ok next' =>
        constructor
        · intro he
          cases he
          exact ⟨rfl, fuel, rfl, rfl⟩
        · intro hpair
          obtain ⟨rfl, f, hf, he⟩ := hpair
          cases he
          rfl

/-- After a request a task stops, or it follows the redirect it got. -/
theorem request_next {url : Str} {r : Except PyExc HttpResponse} {fuel : Nat}
    (hnext : Errand.next D.lib e (.request url) r = match r with
      | .ok resp => Errand.followed D.lib fuel url resp
      | .error _ => .spent) :
    Errand.next D.lib e (.request url) r = .spent ∨
      ∃ f next resp, r = .ok resp ∧ Errand.next D.lib e (.request url) r = .redirected f next ∧
        Errand.followed D.lib fuel url resp = .redirected f next ∧ f + 1 = fuel := by
  rw [hnext]
  cases r with
  | error x => exact Or.inl rfl
  | ok resp =>
    rcases @redirected_or_spent D.lib fuel url resp with ho | ⟨_, f, next, _, hf, _, ho⟩
    · exact Or.inl ho
    · exact Or.inr ⟨f, next, resp, rfl, ho, ho, hf.symm⟩

/-- STEP: an answered request. -/
theorem chased_request {url : Str} {r : Except PyExc HttpResponse} {fuel : Nat}
    (h : Chased D tr es) (he : es[i]? = some e)
    (hfuel : fuel + requestCount i tr = maxRedirects)
    (hnext : Errand.next D.lib e (.request url) r = match r with
      | .ok resp => Errand.followed D.lib fuel url resp
      | .error _ => .spent)
    (hasked : Allowed D url ∨ (i, url) ∈ redirects D.lib tr)
    (hown : ∀ f url', e = .redirected f url' → url' = url) :
    Chased D ((s, .call i (.request url) r) :: tr) (es.set i (Errand.next D.lib e (.request url) r)) := by
  have hcount : ∀ {m}, m ≠ i → requestCount m ((s, .call i (.request url) r) :: tr) = requestCount m tr :=
    fun hm => requestCount_other fun x hx => by cases hx; exact Ne.symm hm
  have hold : ∀ {x}, x ∈ redirects D.lib tr → x ∈ redirects D.lib ((s, .call i (.request url) r) :: tr) :=
    fun hx => List.mem_append_right _ hx
  have hend := request_next hnext
  constructor
  case fresh =>
    intro m hm
    have hne : m ≠ i := by
      intro heq
      subst heq
      have hlt := (List.getElem?_eq_some_iff.mp he).1
      rw [List.getElem?_set_self hlt] at hm
      rcases hend with hq | ⟨f, next, resp, _, hq, _⟩ <;> rw [hq] at hm <;>
        rcases hm with hm | ⟨v, hm⟩ <;> cases hm
    rw [List.getElem?_set_ne (Ne.symm hne)] at hm
    rw [hcount hne]
    exact h.fresh m hm
  case redirected =>
    intro m f next hm
    rcases getElem?_set_cases hm with ⟨rfl, hnew⟩ | ⟨hne, hm⟩
    · rcases hend with ho | ⟨f', next', resp, rfl, ho, hfollow, hf⟩
      · rw [ho] at hnew
        cases hnew
      · cases hnew.trans ho
        refine ⟨by rw [requestCount_self]; omega, List.mem_append_left _ ?_⟩
        rw [(redirectOf_followed hfuel (m, next)).mpr ⟨rfl, f, hf, hfollow⟩]
        exact List.mem_singleton.mpr rfl
    · obtain ⟨hf, hmem⟩ := h.redirected m f next hm
      exact ⟨by rw [hcount hne]; exact hf, hold hmem⟩
  case asked =>
    intro x hx
    rw [requests_cons] at hx
    rcases List.mem_append.mp hx with hx | hx
    · cases List.mem_singleton.mp hx
      exact hasked.imp_right hold
    · exact (h.asked x hx).imp_right hold
  case followed =>
    intro x hx
    rw [requests_cons]
    rcases List.mem_append.mp hx with hx | hx
    · right
      cases r with
      | error e' => cases hx
      | ok resp =>
        obtain ⟨hi, f, hf, hfollow⟩ := (redirectOf_followed hfuel x).mp (Option.mem_toList.mp hx)
        have hlt := (List.getElem?_eq_some_iff.mp he).1
        refine ⟨f, ?_⟩
        rw [hi, List.getElem?_set_self hlt, hnext]
        exact congrArg some hfollow
    · rcases h.followed x hx with hreq | ⟨f, hf⟩
      · exact Or.inl (List.mem_append_right _ hreq)
      · by_cases hi : x.1 = i
        · obtain ⟨m, url'⟩ := x
          subst hi
          have hurl := hown f url' (Option.some.inj (he.symm.trans hf))
          subst hurl
          exact Or.inl (List.mem_append_left _ (List.mem_singleton.mpr rfl))
        · exact Or.inr ⟨f, by rw [List.getElem?_set_ne (Ne.symm hi)]; exact hf⟩

/-- STEP: any other call. -/
theorem chased_other (h : Chased D tr es) (he : es[i]? = some e) (hpre : e.pre o)
    (ho : ∀ url, o ≠ .request url) :
    Chased D ((s, .call i o r) :: tr) (es.set i (Errand.next D.lib e o r)) := by
  have hnone : requestOf (.call i o r) = none := by
    cases o <;> first | rfl | exact absurd rfl (ho _)
  have hred : redirectOf D.lib tr (.call i o r) = none := by
    cases o <;> first | rfl | exact absurd rfl (ho _)
  have hreqs : requests ((s, .call i o r) :: tr) = requests tr := by rw [requests_cons, hnone]; rfl
  have hreds : redirects D.lib ((s, .call i o r) :: tr) = redirects D.lib tr := by
    show (redirectOf D.lib tr (.call i o r)).toList ++ _ = _
    rw [hred]
    rfl
  have hcount : ∀ m, requestCount m ((s, .call i o r) :: tr) = requestCount m tr := fun m => by
    unfold requestCount
    rw [hreqs]
  have hstill : ∀ f url, e ≠ .redirected f url := by
    intro f url heq
    subst heq
    exact ho url hpre
  constructor
  case fresh =>
    intro m hm
    rw [hcount]
    have hsame : m = i → requestCount m tr = 0 := by
      intro heq
      subst heq
      cases e with
      | empty => exact h.fresh m (Or.inl he)
      | carrying v => exact h.fresh m (Or.inr ⟨v, he⟩)
      | redirected f url => exact absurd rfl (hstill f url)
      | spent =>
        have hover : Errand.next D.lib .spent o r = .spent := by cases o <;> rfl
        have hlt := (List.getElem?_eq_some_iff.mp he).1
        rw [hover, List.getElem?_set_self hlt] at hm
        rcases hm with hm | ⟨v, hm⟩ <;> cases hm
    by_cases hmi : m = i
    · exact hsame hmi
    · rw [List.getElem?_set_ne (Ne.symm hmi)] at hm
      exact h.fresh m hm
  case redirected =>
    intro m f url hm
    rw [hcount, hreds]
    rcases getElem?_set_cases hm with ⟨rfl, hnew⟩ | ⟨_, hm⟩
    · rcases redirected_next hnew.symm with ⟨url', hreq⟩ | hsame
      · exact absurd hreq (ho url')
      · exact absurd hsame (hstill f url)
    · exact h.redirected m f url hm
  case asked =>
    rw [hreqs, hreds]
    exact h.asked
  case followed =>
    intro x hx
    rw [hreds] at hx
    rw [hreqs]
    refine (h.followed x hx).imp_right fun ⟨f, hf⟩ => ⟨f, ?_⟩
    by_cases hi : x.1 = i
    · rw [hi] at hf
      exact absurd (Option.some.inj (he.symm.trans hf)) (hstill f x.2)
    · rw [List.getElem?_set_ne (Ne.symm hi)]
      exact hf

/-- STEP: a task starts. -/
theorem chased_spawn (hr : D.sys.Run w₀ tr s) (hlen : es.length = s.tasks.length)
    (h : Chased D tr es) (n : TaskName) :
    Chased D ((s, .spawn n) :: tr) (es ++ [D.errandProtocol.start n]) where
  fresh m hm := by
    show requestCount m tr = 0
    have hold : ∀ {q}, (es ++ [D.errandProtocol.start n])[m]? = some q →
        es[m]? = some q ∨ requestCount m tr = 0 := by
      intro q hm
      rcases getElem?_append_cases hm with ⟨rfl, -⟩ | hm
      · refine Or.inr (requestCount_zero fun hd => ?_)
        have hlt := hr.index_lt (fun l hl => ⟨_, hl.choose_spec⟩) hd
        omega
      · exact Or.inl hm
    rcases hm with hm | ⟨v, hm⟩
    · exact (hold hm).elim (fun hm => h.fresh m (Or.inl hm)) id
    · exact (hold hm).elim (fun hm => h.fresh m (Or.inr ⟨v, hm⟩)) id
  redirected m fuel url hm := by
    rcases getElem?_append_cases hm with ⟨_, hnew⟩ | hm
    · cases n <;> cases hnew
    · exact h.redirected m fuel url hm
  asked := h.asked
  followed x hx := by
    refine (h.followed x hx).imp_right fun ⟨f, hf⟩ => ⟨f, ?_⟩
    have hlt := (List.getElem?_eq_some_iff.mp hf).1
    rw [List.getElem?_append_left hlt]
    exact hf

/-- RUN: the chase of every run from an empty queue. -/
theorem chased_run (h : D.sys.Run w₀ tr s) (hempty : w₀.queue = []) :
    Chased D tr (D.errandProtocol.phases tr) := by
  have hinv := D.errandProtocol.run_invariant (G := fun _ _ => True)
    (I := fun tr _ es => Chased D tr es) ?_ ?_ ?_ ?_ h fun _ _ => trivial
  · exact hinv.2
  · exact ⟨fun _ _ => rfl, nofun, nofun, nofun⟩
  · intro tr s i n o k r w' e hr _ hC _ he hpre _ _
    refine ⟨trivial, ?_⟩
    by_cases hreq : ∃ url, o = .request url
    · obtain ⟨url, rfl⟩ := hreq
      cases e with
      | empty => exact hpre.elim
      | spent => exact hpre.elim
      | carrying v =>
        obtain ⟨j, m, u, _, _, rfl, hvet⟩ := (errands_run hr hempty).2.carrying i v he
        cases (show Json.str u = .str url from hpre)
        have hnone := hC.fresh i (Or.inr ⟨_, he⟩)
        exact chased_request hC he (congrArg (maxRedirects + ·) hnone) (by cases r <;> rfl)
          (Or.inl hvet.allowed) nofun
      | redirected f url' =>
        cases (show Op.request url = .request url' from hpre)
        obtain ⟨hfuel, hmem⟩ := hC.redirected i f url he
        refine chased_request hC he hfuel (by cases r <;> rfl) (Or.inr hmem) ?_
        intro f' url' he'
        cases he'
        rfl
    · exact chased_other hC he hpre fun url ho => hreq ⟨url, ho⟩
  · exact fun hr hob hC _ _ => chased_spawn hr hob.length.symm hC _
  · exact fun _ _ hC _ _ => ⟨hC.fresh, hC.redirected, hC.asked, hC.followed⟩

end Chase

/-! ## 3. Allowed hosts only -/

section Allowlist

variable {D : Deployment} {w₀ : World} {tr : SysTrace} {s : SysState}

/-- A task that was redirected is at the request of the target. -/
theorem requested_of_redirected (hob : D.errandProtocol.Obeyed tr s) {i fuel : Nat} {url : Str}
    (he : (D.errandProtocol.phases tr)[i]? = some (.redirected fuel url)) : Requested tr s i url := by
  obtain ⟨⟨n, p⟩, ht⟩ := hob.task he
  have hobeys := hob.obeys i _ _ ht he
  right
  cases p with
  | ret a => exact hobeys.elim
  | raise x => exact hobeys.elim
  | call o k =>
    obtain rfl : o = .request url := hobeys.1
    exact ⟨n, k, ht⟩

/-- **Allowed hosts only**: a task contacts no other host for an image exactly as long as every
    redirect it follows leads to an allowed one. -/
theorem requests_allowed_iff (h : D.sys.Run w₀ tr s) (hempty : w₀.queue = []) (i : Nat) :
    RequestsAllowed D tr s i ↔ RedirectsAllowed D tr i := by
  have hC := chased_run h hempty
  obtain ⟨hob, hE⟩ := errands_run h hempty
  constructor
  · intro hreq url hx
    refine hreq url ?_
    rcases hC.followed (i, url) hx with hasked | ⟨fuel, he⟩
    · exact Or.inl hasked
    · exact requested_of_redirected hob he
  · intro hred url hcase
    rcases hcase with hasked | ⟨n, k, ht⟩
    · exact (hC.asked (i, url) hasked).elim id (hred url)
    · obtain ⟨e, he, hpre⟩ := hob.permitted ht
      cases e with
      | empty => exact hpre.elim
      | spent => exact hpre.elim
      | carrying v =>
        obtain ⟨j, m, u, _, _, rfl, hvet⟩ := hE.carrying i v he
        cases (show Json.str u = .str url from hpre)
        exact hvet.allowed
      | redirected fuel url' =>
        cases (show Op.request url = .request url' from hpre)
        exact hred _ (hC.redirected i fuel url he).2

end Allowlist

namespace Sample

def metadataUrl : Str := "http://169.254.169.254/latest/meta-data/".toList

/-- Libraries that read the host off these two URLs. -/
def parsingLib : Externals :=
  { seeingLib with
    hostname := fun u => .ok (some (if u = metadataUrl then "169.254.169.254".toList
      else "img-campaign.gotit.vn".toList)) }

def parsing : Deployment := { deployment with lib := parsingLib }

/-- The image host redirects to the metadata service. -/
def redirecting : (o : Op) → Except PyExc (Ans o)
  | .request _ => .ok { statusCode := 302, location := some metadataUrl }
  | o => services o

/-- A worker downloads the image of a submitted job, is redirected and gets an answer there. -/
def redirectMoves (host : (o : Op) → Except PyExc (Ans o)) : List Move :=
  [.spawn (.submit job url), .run 0, .run 0, .run 0, .spawn (.worker 0), .run 1, .run 1, .run 1,
    .serve 1 host, .serve 1 services]

theorem replays_redirect :
    (parsing.replay (World.fresh 0) (redirectMoves redirecting)).isSome = true := by decide +kernel

def redirectRun : SysTrace × SysState :=
  (parsing.replay (World.fresh 0) (redirectMoves redirecting)).get replays_redirect

theorem run_redirectRun : parsing.sys.Run (World.fresh 0) redirectRun.1 redirectRun.2 :=
  replay_get_run replays_redirect

/-- The image has moved within the image host. -/
def movedUrl : Str := "https://img-campaign.gotit.vn/2.jpg".toList

def moving : (o : Op) → Except PyExc (Ans o)
  | .request _ => .ok { statusCode := 301, location := some movedUrl }
  | o => services o

theorem replays_moved : (parsing.replay (World.fresh 0) (redirectMoves moving)).isSome = true := by
  decide +kernel

def movedRun : SysTrace × SysState :=
  (parsing.replay (World.fresh 0) (redirectMoves moving)).get replays_moved

theorem run_movedRun : parsing.sys.Run (World.fresh 0) movedRun.1 movedRun.2 :=
  replay_get_run replays_moved

end Sample

/-- The target of the redirect is requested, and is not on the list. -/
theorem redirect_escapes : ∃ tr s, Sample.parsing.sys.Run (World.fresh 0) tr s ∧
    ∃ i, ¬ RequestsAllowed Sample.parsing tr s i := by
  refine ⟨_, _, Sample.run_redirectRun, 1, fun h => ?_⟩
  have hasked : (1, Sample.metadataUrl) ∈ requests Sample.redirectRun.1 := by decide +kernel
  have hallowed : Allowed Sample.parsing Sample.metadataUrl := h _ (Or.inl hasked)
  have hrefused : (validateImageDomain Sample.parsing.cfg Sample.parsing.lib
      Sample.metadataUrl).isOk = false := by decide +kernel
  rw [hallowed] at hrefused
  cases hrefused

/-- A redirect within the image host is followed. -/
theorem requests_allowed_moved :
    RequestsAllowed Sample.parsing Sample.movedRun.1 Sample.movedRun.2 1 := by
  refine (requests_allowed_iff Sample.run_movedRun rfl 1).mpr ?_
  have hredirects : redirects Sample.parsing.lib Sample.movedRun.1 = [(1, Sample.movedUrl)] := by
    decide +kernel
  intro url hx
  rw [hredirects] at hx
  cases List.mem_singleton.mp hx
  have hok : (validateImageDomain Sample.parsing.cfg Sample.parsing.lib Sample.movedUrl).isOk = true := by
    decide +kernel
  unfold Allowed
  cases hvalid : validateImageDomain Sample.parsing.cfg Sample.parsing.lib Sample.movedUrl with
  | ok _ => rfl
  | error e =>
    rw [hvalid] at hok
    cases hok

end InvoiceOcr
