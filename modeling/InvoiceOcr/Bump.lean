/-
  File:      InvoiceOcr/Bump.lean
  Subject:   BUMPING THE REQUEUE COUNTER (src/storage/redis_client.py, `bump_requeue_counter`), in any
             sequence of calls, with keys that expire in between.

  * `BumpCase` -- all that one call can do: nothing, count, count and set the expiry, or count and
    fail to set it;
  * `returned` -- the counts returned since the key last expired;
  * `Counted` -- what holds in any case: a key that exists counts something; `BumpAccount` -- the account of a
    session with all expiries set;
  * **`bump_atomic_iff`** -- the calls are atomic exactly when Redis refuses no EXPIRE;
  * **`bump_half_done`** -- one refused EXPIRE: the call raises, the counter stays up and never expires.
-/
import InvoiceOcr.Async.Session
import InvoiceOcr.Replay

namespace InvoiceOcr

open PyJson Async

/-! ## 1. Sessions of calls -/

abbrev BumpEntry := Entry Op Ans PyExc Nat Uuid World

/-- Calls for any jobs, one after another, while time passes. -/
abbrev BumpSession (cfg : Settings) := Session Sem Drift (bumpRequeueCounter cfg)

/-- The counter of a job. -/
def requeueCount (w : World) (j : Uuid) : Nat := w.counter (requeueKey j) requeueField

/-- The counts returned for the job since its key last expired, the latest first. -/
def returned (j : Uuid) : List BumpEntry → List Nat
  | [] => []
  | ⟨_, .ran i _ (.ok n), _⟩ :: tr => if i = j then n :: returned j tr else returned j tr
  | ⟨_, .ran _ _ (.error _), _⟩ :: tr => returned j tr
  | ⟨w, .idled, w'⟩ :: tr =>
    if (w.hashes (requeueKey j)).isSome && (w'.hashes (requeueKey j)).isNone then [] else returned j tr

/-- A call that raises `StorageTransientError` leaves the counter as it was. -/
def Harmless (e : BumpEntry) : Prop :=
  ∀ j es message, e.turn = .ran j es (.error (.storageTransient message)) →
    requeueCount e.after j = requeueCount e.before j

/-- Every counter key has an expiry set. -/
def Expiring (w : World) : Prop :=
  ∀ j h, w.hashes (requeueKey j) = some h → h.expires = true

/-- A counter key that is there counts something. -/
def LiveKeys (w : World) : Prop :=
  ∀ j h, w.hashes (requeueKey j) = some h → 0 < requeueCount w j

/-- **Every call is atomic.** -/
structure AtomicBumps (tr : List BumpEntry) : Prop where
  harmless : ∀ e ∈ tr, Harmless e
  consecutive : ∀ j tr', tr' <:+ tr →
    (returned j tr').reverse = List.range' 1 (returned j tr').length
  expiring : ∀ e ∈ tr, Expiring e.after

/-- Redis refuses no EXPIRE of the turn. -/
def ExpirySet (e : BumpEntry) : Prop :=
  ∀ j es x, e.turn = .ran j es x → ∀ key seconds err,
    (⟨.expire key seconds, .error err⟩ : Event Op Ans PyExc) ∉ es

/-! ## 2. One call -/

/-- **All that one call can do.** -/
inductive BumpCase (cfg : Settings) (j : Uuid) (w : World) :
    List (Event Op Ans PyExc) → Except PyExc Nat → World → Prop where
  | refused (e e' : PyExc) :
      BumpCase cfg j w [⟨.hincrby (requeueKey j) requeueField, .error e⟩] (.error e') w
  | counted (h : requeueCount w j ≠ 0) :
      BumpCase cfg j w [⟨.hincrby (requeueKey j) requeueField, .ok (requeueCount w j + 1)⟩]
        (.ok (requeueCount w j + 1)) (w.bump (requeueKey j) requeueField)
  | first (h : requeueCount w j = 0) :
      BumpCase cfg j w [⟨.hincrby (requeueKey j) requeueField, .ok 1⟩,
          ⟨.expire (requeueKey j) cfg.redisRequeueTtlSeconds, .ok ()⟩]
        (.ok 1) ((w.bump (requeueKey j) requeueField).setExpiry (requeueKey j))
  | halfDone (h : requeueCount w j = 0) (e : PyExc) :
      BumpCase cfg j w [⟨.hincrby (requeueKey j) requeueField, .ok 1⟩,
          ⟨.expire (requeueKey j) cfg.redisRequeueTtlSeconds, .error e⟩]
        (.error (if e.isRedisError then
          .storageTransient ("redis bump_requeue failed: ".toList ++ e.str) else e))
        (w.bump (requeueKey j) requeueField)

section Calls

variable {cfg : Settings} {j : Uuid} {w w' : World} {es : List (Event Op Ans PyExc)}
  {x : Except PyExc Nat}

theorem bump_cases (h : Exec Sem (bumpRequeueCounter cfg j) w es x w') : BumpCase cfg j w es x w' := by
  obtain ⟨y, hbody, rfl⟩ := (exec_mapError _ _ x).mp h
  rcases (exec_bind _ _ y).mp hbody with ⟨es₁, w₁, es₂, count, rfl, hcount, hrest⟩ | ⟨e, hcount, rfl⟩
  · obtain ⟨⟨hvalue, rfl⟩, rfl⟩ := (exec_await _ _).mp hcount
    change @Eq Nat count (requeueCount w j + 1) at hvalue
    change Exec Sem (if count = 1 then
      Proc.bind (await (.expire (requeueKey j) cfg.redisRequeueTtlSeconds)) fun _ => .ret count
      else .ret count) _ es₂ y w' at hrest
    by_cases hfirst : @Eq Nat count 1
    · rw [if_pos hfirst] at hrest
      subst hfirst
      have hzero : requeueCount w j = 0 := by omega
      rcases (exec_bind _ _ y).mp hrest with ⟨es₁, w₁, es₃, a, rfl, hexpire, hret⟩ | ⟨e, hexpire, rfl⟩
      · obtain ⟨hset, rfl⟩ := (exec_await _ _).mp hexpire
        obtain ⟨rfl, rfl, rfl⟩ := (exec_ret _ y).mp hret
        rw [show w' = _ from hset]
        exact .first hzero
      · obtain ⟨hsame, rfl⟩ := (exec_await _ _).mp hexpire
        rw [show w' = _ from hsame]
        exact .halfDone hzero e
    · rw [if_neg hfirst] at hrest
      obtain ⟨rfl, rfl, rfl⟩ := (exec_ret _ y).mp hrest
      subst hvalue
      exact .counted (by omega)
  · obtain ⟨hsame, rfl⟩ := (exec_await _ _).mp hcount
    rw [show w' = w from hsame]
    exact .refused e _

/-- A call for another job touches neither counter nor key. -/
theorem bump_other {k : Uuid} (h : BumpCase cfg j w es x w') (hk : k ≠ j) :
    w'.hashes (requeueKey k) = w.hashes (requeueKey k) := by
  have hkey : requeueKey k ≠ requeueKey j := fun heq => hk (requeueKey_injective heq)
  cases h with
  | refused => rfl
  | counted => exact if_neg hkey
  | first =>
    show (if requeueKey k = requeueKey j then _ else (w.bump (requeueKey j) requeueField).hashes _) = _
    rw [if_neg hkey]
    exact if_neg hkey
  | halfDone => exact if_neg hkey

theorem requeueCount_congr (h : w'.hashes (requeueKey j) = w.hashes (requeueKey j)) :
    requeueCount w' j = requeueCount w j := by
  unfold requeueCount World.counter
  rw [h]

/-- The counter counts what is returned; a call that is half done counts as well. -/
theorem count_of_bump (h : BumpCase cfg j w es x w') :
    (∀ n, x = .ok n → n = requeueCount w j + 1 ∧ requeueCount w' j = requeueCount w j + 1) ∧
      ((∃ e, x = .error e) → (∀ key seconds err,
        (⟨.expire key seconds, .error err⟩ : Event Op Ans PyExc) ∉ es) → w' = w) := by
  cases h with
  | refused e e' => exact ⟨nofun, fun _ _ => rfl⟩
  | counted hne =>
    refine ⟨fun n hn => ?_, fun herror => ?_⟩
    · cases hn
      exact ⟨rfl, counter_bump w _ _⟩
    · obtain ⟨e, he⟩ := herror
      cases he
  | first hzero =>
    refine ⟨fun n hn => ?_, fun herror => ?_⟩
    · cases hn
      rw [hzero]
      refine ⟨rfl, (counter_setExpiry _ _ _ _).trans ?_⟩
      rw [counter_bump]
      exact congrArg (· + 1) hzero
    · obtain ⟨e, he⟩ := herror
      cases he
  | halfDone hzero e =>
    refine ⟨nofun, fun _ hset => ?_⟩
    exact absurd (List.mem_cons_of_mem _ List.mem_cons_self) (hset _ _ e)

/-- A counter that is not zero lives in a key. -/
theorem key_of_count (h : requeueCount w j ≠ 0) : ∃ hash, w.hashes (requeueKey j) = some hash := by
  unfold requeueCount World.counter at h
  cases hkey : w.hashes (requeueKey j) with
  | none => simp [hkey] at h
  | some hash => exact ⟨hash, rfl⟩

theorem hashes_bump_self (w : World) (key field : Str) :
    ∃ fields, (w.bump key field).hashes key =
      some ⟨fields, ((w.hashes key).getD ⟨fun _ => none, false⟩).expires⟩ :=
  ⟨_, if_pos rfl⟩

/-- STEP: counter keys go on to have an expiry, if the call is not left half done. -/
theorem expiring_of_bump (h : BumpCase cfg j w es x w') (hexpiring : Expiring w)
    (hset : ∀ key seconds err, (⟨.expire key seconds, .error err⟩ : Event Op Ans PyExc) ∉ es) :
    Expiring w' := by
  intro k hash hhash
  by_cases hk : k = j
  · subst hk
    obtain ⟨fields, hbump⟩ := hashes_bump_self w (requeueKey k) requeueField
    cases h with
    | refused e e' => exact hexpiring k hash hhash
    | counted hne =>
      obtain ⟨old, hold⟩ := key_of_count hne
      rw [hbump, hold] at hhash
      cases hhash
      exact hexpiring k old hold
    | first hzero =>
      have hexpire : (((w.bump (requeueKey k) requeueField).setExpiry (requeueKey k)).hashes
          (requeueKey k)) = some ⟨fields, true⟩ := by
        unfold World.setExpiry
        simp only [if_pos, hbump]
        rfl
      rw [hexpire] at hhash
      cases hhash
      rfl
    | halfDone hzero e => exact absurd (List.mem_cons_of_mem _ List.mem_cons_self) (hset _ _ e)
  · rw [bump_other h hk] at hhash
    exact hexpiring k hash hhash

/-- STEP: counter keys go on to count something. -/
theorem liveKeys_of_bump (h : BumpCase cfg j w es x w') (hlive : LiveKeys w) : LiveKeys w' := by
  intro k hash hhash
  by_cases hk : k = j
  · subst hk
    cases h with
    | refused e e' => exact hlive k hash hhash
    | counted hne => exact lt_of_lt_of_eq (Nat.succ_pos _) (counter_bump w _ _).symm
    | first hzero =>
      exact lt_of_lt_of_eq (Nat.succ_pos _)
        ((counter_setExpiry _ _ _ _).trans (counter_bump w _ _)).symm
    | halfDone hzero e => exact lt_of_lt_of_eq (Nat.succ_pos _) (counter_bump w _ _).symm
  · have hsame := bump_other h hk
    rw [requeueCount_congr hsame]
    exact hlive k hash (hsame ▸ hhash)

end Calls

/-! ## 3. Time that passes -/

section Drifts

variable {w w' : World} {j : Uuid}

/-- The key of a job stays as it is, or expires and takes the count with it. -/
theorem key_of_drift (h : Drift w w') (j : Uuid) :
    (w'.hashes (requeueKey j) = w.hashes (requeueKey j) ∧ requeueCount w' j = requeueCount w j) ∨
      ((w.hashes (requeueKey j)).isSome = true ∧ w'.hashes (requeueKey j) = none ∧
        requeueCount w' j = 0) := by
  rcases hashes_of_drift h (requeueKey j) with hsame | ⟨hnone, hsome⟩
  · exact Or.inl ⟨hsame, requeueCount_congr hsame⟩
  · refine Or.inr ⟨hsome, hnone, ?_⟩
    unfold requeueCount World.counter
    rw [hnone]

theorem expiring_of_drift (h : Drift w w') (hexpiring : Expiring w) : Expiring w' := by
  intro j hash hhash
  rcases key_of_drift h j with ⟨hsame, -⟩ | ⟨-, hnone, -⟩
  · exact hexpiring j hash (hsame ▸ hhash)
  · rw [hnone] at hhash
    cases hhash

theorem liveKeys_of_drift (h : Drift w w') (hlive : LiveKeys w) : LiveKeys w' := by
  intro j hash hhash
  rcases key_of_drift h j with ⟨hsame, hcount⟩ | ⟨-, hnone, -⟩
  · rw [hcount]
    exact hlive j hash (hsame ▸ hhash)
  · rw [hnone] at hhash
    cases hhash

end Drifts

/-! ## 4. Sessions -/

section Sessions

variable {cfg : Settings} {w₀ w w' : World} {tr : List BumpEntry} {j : Uuid}

/-- No counter key is there. -/
def NoCounters (w : World) : Prop := ∀ j, w.hashes (requeueKey j) = none

/-- The account of a session in which every expiry was set. -/
structure BumpAccount (tr : List BumpEntry) (w : World) : Prop where
  atomic : AtomicBumps tr
  expiring : Expiring w
  counts : ∀ j, requeueCount w j = (returned j tr).length

theorem requeueCount_none (h : w.hashes (requeueKey j) = none) : requeueCount w j = 0 := by
  unfold requeueCount World.counter
  rw [h]

theorem account_start (h : NoCounters w₀) : BumpAccount [] w₀ where
  atomic := ⟨nofun, fun j tr' hsuffix => by rw [List.suffix_nil.mp hsuffix]; rfl, nofun⟩
  expiring j hash hhash := by
    rw [h j] at hhash
    cases hhash
  counts j := requeueCount_none (h j)

/-- One more turn keeps the account, when it is harmless, counts on and leaves the keys expiring. -/
theorem BumpAccount.cons {e : BumpEntry} (h : BumpAccount tr w) (hharmless : Harmless e) (hexpiring : Expiring e.after)
    (hcounts : ∀ j, requeueCount e.after j = (returned j (e :: tr)).length)
    (hconsecutive : ∀ j, (returned j (e :: tr)).reverse = List.range' 1 (returned j (e :: tr)).length) :
    BumpAccount (e :: tr) e.after where
  atomic :=
    { harmless := List.forall_mem_cons.mpr ⟨hharmless, h.atomic.harmless⟩
      consecutive := fun j tr' hsuffix => by
        rcases List.suffix_cons_iff.mp hsuffix with rfl | hsuffix
        · exact hconsecutive j
        · exact h.atomic.consecutive j tr' hsuffix
      expiring := List.forall_mem_cons.mpr ⟨hexpiring, h.atomic.expiring⟩ }
  expiring := hexpiring
  counts := hcounts

/-- STEP: a call whose expiry is set. -/
theorem account_ran {i : Uuid} {es : List (Event Op Ans PyExc)} {x : Except PyExc Nat} (h : BumpAccount tr w)
    (hrun : Exec Sem (bumpRequeueCounter cfg i) w es x w') (hset : ExpirySet ⟨w, .ran i es x, w'⟩) :
    BumpAccount (⟨w, .ran i es x, w'⟩ :: tr) w' := by
  have hcase := bump_cases hrun
  have hexpiries := hset i es x rfl
  obtain ⟨hcount, hraised⟩ := count_of_bump hcase
  have hexpiring := expiring_of_bump hcase h.expiring hexpiries
  have hsame : ∀ e, x = .error e → ∀ j, requeueCount w' j = requeueCount w j := by
    intro e he j
    rw [hraised ⟨e, he⟩ hexpiries]
  refine h.cons (fun j es' message hturn => ?_) hexpiring (fun j => ?_) fun j => ?_
  · cases hturn
    exact hsame _ rfl i
  · cases x with
    | error e => exact (hsame e rfl j).trans (h.counts j)
    | ok n =>
      by_cases hij : i = j
      · subst hij
        simp only [returned, if_true, List.length_cons]
        rw [(hcount n rfl).2, h.counts]
      · simp only [returned, hij, if_false]
        rw [requeueCount_congr (bump_other hcase (Ne.symm hij)), h.counts]
  · have hbefore := h.atomic.consecutive j tr (List.suffix_refl tr)
    cases x with
    | error e => exact hbefore
    | ok n =>
      by_cases hij : i = j
      · subst hij
        simp only [returned, if_true, List.length_cons, List.reverse_cons]
        rw [hbefore, (hcount n rfl).1, h.counts, List.range'_1_concat, Nat.add_comm 1]
      · simp only [returned, hij, if_false]
        exact hbefore

/-- STEP: time passes. -/
theorem account_idled (h : BumpAccount tr w) (hdrift : Drift w w') : BumpAccount (⟨w, .idled, w'⟩ :: tr) w' := by
  have hreturned : ∀ j, (returned j (⟨w, .idled, w'⟩ :: tr) = returned j tr ∧
      requeueCount w' j = requeueCount w j) ∨
      (returned j (⟨w, .idled, w'⟩ :: tr) = [] ∧ requeueCount w' j = 0) := by
    intro j
    rcases key_of_drift hdrift j with ⟨hsame, hcount⟩ | ⟨hsome, hnone, hcount⟩
    · refine Or.inl ⟨if_neg ?_, hcount⟩
      rw [hsame]
      cases w.hashes (requeueKey j) <;> simp
    · refine Or.inr ⟨if_pos ?_, hcount⟩
      rw [hsome, hnone]
      rfl
  refine h.cons (fun j es message hturn => by cases hturn) (expiring_of_drift hdrift h.expiring)
    (fun j => ?_) fun j => ?_
  · rcases hreturned j with ⟨hr, hcount⟩ | ⟨hr, hcount⟩
    · rw [hr, hcount, h.counts]
    · rw [hr, hcount]
      rfl
  · rcases hreturned j with ⟨hr, -⟩ | ⟨hr, -⟩
    · rw [hr]
      exact h.atomic.consecutive j tr (List.suffix_refl tr)
    · rw [hr]
      rfl

/-- RUN: a session in which Redis refuses no EXPIRE. -/
theorem account_session (hstart : NoCounters w₀) (h : BumpSession cfg w₀ tr w)
    (hset : ∀ e ∈ tr, ExpirySet e) : BumpAccount tr w :=
  h.invariant ExpirySet BumpAccount (account_start hstart) account_ran account_idled hset

/-- RUN: in any session the keys that are there count something. -/
theorem liveKeys_session (hstart : NoCounters w₀) (h : BumpSession cfg w₀ tr w) : LiveKeys w :=
  h.invariant (fun _ => True) (fun _ w => LiveKeys w)
    (fun j hash hhash => by rw [hstart j] at hhash; cases hhash)
    (fun hlive hrun _ => liveKeys_of_bump (bump_cases hrun) hlive)
    (fun hlive hdrift => liveKeys_of_drift hdrift hlive) fun _ _ => trivial

/-- **Bumping is atomic exactly while Redis refuses no EXPIRE**: in every sequence of calls and
    expiries, whichever HINCRBY commands fail. -/
theorem bump_atomic_iff (hstart : NoCounters w₀) (h : BumpSession cfg w₀ tr w) :
    AtomicBumps tr ↔ ∀ e ∈ tr, ExpirySet e := by
  constructor
  · intro hatomic e he j es x hturn key seconds err hmem
    obtain ⟨tr', hbefore, hafter, -⟩ := h.turn_mem he
    have hlive := liveKeys_session hstart hbefore
    have hexpiring := hatomic.expiring e he
    obtain ⟨w₁, turn, w₂⟩ := e
    cases hturn
    cases hafter with
    | ran _ hrun =>
      cases bump_cases hrun with
      | refused => simp at hmem
      | counted => simp at hmem
      | first => simp at hmem
      | halfDone hzero e =>
        -- the key is new, and no later call will set its expiry
        obtain ⟨fields, hbump⟩ := hashes_bump_self w₁ (requeueKey j) requeueField
        have hnew : w₁.hashes (requeueKey j) = none := by
          cases hkey : w₁.hashes (requeueKey j) with
          | none => rfl
          | some hash => exact absurd hzero (Nat.ne_of_gt (hlive j hash hkey))
        rw [hnew] at hbump
        cases hexpiring j _ hbump
  · exact fun hset => (account_session hstart h hset).atomic

end Sessions

/-! ## 5. Concrete calls -/

namespace Sample

/-- A call for the sample job under faults. -/
def bump (faults : Op → Option PyExc) (w : World) :
    List (Event Op Ans PyExc) × Except PyExc Nat × World :=
  ((bumpRequeueCounter {} job).events (World.answer faults fun _ => .error (.exception [])) w,
    (bumpRequeueCounter {} job).interp (World.answer faults fun _ => .error (.exception [])) w)

theorem exec_bump (faults : Op → Option PyExc) (w : World) :
    Exec Sem (bumpRequeueCounter {} job) w (bump faults w).1 (bump faults w).2.1 (bump faults w).2.2 :=
  exec_events _ (answer_sem faults _) (bumpRequeueCounter {} job) w

/-- A call, as a turn of a session. -/
def bumpEntry (faults : Op → Option PyExc) (w : World) : BumpEntry :=
  ⟨w, .ran job (bump faults w).1 (bump faults w).2.1, (bump faults w).2.2⟩

/-- Redis refuses HINCRBY. -/
def countRefused : Op → Option PyExc
  | .hincrby _ _ => some (.redisConnectionError "Connection refused".toList)
  | _ => none

/-- The stores after two calls and a refused one. -/
def countedTwice : World := (bump (fun _ => none) (bump (fun _ => none) (World.fresh 0)).2.2).2.2

def refusedOnce : World := (bump countRefused countedTwice).2.2

/-- The key's time is up. -/
def expired : World :=
  { refusedOnce with hashes := fun k => if k = requeueKey job then none else refusedOnce.hashes k }

theorem drift_expired : Drift refusedOnce expired := by
  have hkey : (refusedOnce.hashes (requeueKey job)).any RedisHash.expires = true := by decide +kernel
  obtain ⟨h, hfound, hexpires⟩ := (Option.any_eq_true _ _).mp hkey
  exact .expireHash refusedOnce (requeueKey job) hfound hexpires

/-- A call on stores without counters, another one, one that is refused, and one after the key has
    expired; the latest first. -/
def bumps : List BumpEntry :=
  [bumpEntry (fun _ => none) expired, ⟨refusedOnce, .idled, expired⟩, bumpEntry countRefused countedTwice,
    bumpEntry (fun _ => none) (bump (fun _ => none) (World.fresh 0)).2.2,
    bumpEntry (fun _ => none) (World.fresh 0)]

theorem session_bumps :
    BumpSession {} (World.fresh 0) bumps (bump (fun _ => none) expired).2.2 :=
  .ran (.idled (.ran (.ran (.ran .start (exec_bump _ _)) (exec_bump _ _)) (exec_bump _ _)) drift_expired)
    (exec_bump _ _)

def isRefusedExpire : Event Op Ans PyExc → Bool
  | ⟨.expire _ _, .error _⟩ => true
  | _ => false

/-- A check of one turn that is enough for its condition. -/
def setsExpiry (e : BumpEntry) : Bool :=
  match e.turn with
  | .ran _ es _ => es.all fun ev => !isRefusedExpire ev
  | .idled => true

theorem expirySet_of_setsExpiry {e : BumpEntry} (h : setsExpiry e = true) : ExpirySet e := by
  intro j es x hturn key seconds err hmem
  unfold setsExpiry at h
  rw [hturn] at h
  exact absurd (List.all_eq_true.mp h _ hmem) (by simp [isRefusedExpire])

/-- Redis refuses EXPIRE. -/
def expireRefused : Op → Option PyExc
  | .expire _ _ => some (.redisError "READONLY".toList)
  | _ => none

/-- What is left of a call whose EXPIRE is refused. -/
def halfBumped : World := (bump expireRefused (World.fresh 0)).2.2

end Sample

/-- Two calls count, the refused one does not, and after the key has expired the count starts again. -/
theorem bump_atomic_expired :
    returned Sample.job Sample.bumps.tail.tail = [2, 1] ∧ returned Sample.job Sample.bumps = [1] ∧
      AtomicBumps Sample.bumps := by
  have hset : Sample.bumps.all Sample.setsExpiry = true := by decide +kernel
  refine ⟨by decide +kernel, by decide +kernel, ?_⟩
  exact (bump_atomic_iff (show NoCounters (World.fresh 0) from fun _ => rfl) Sample.session_bumps).mpr
    fun e he => Sample.expirySet_of_setsExpiry (List.all_eq_true.mp hset e he)

/-- **A call that is half done**: Redis refuses the EXPIRE. The call raises, the counter is up by one,
    its key has no expiry, and the next call returns 2. -/
theorem bump_half_done : ∃ es message es' w'',
    Exec Sem (bumpRequeueCounter {} Sample.job) (World.fresh 0) es (.error (.storageTransient message))
      Sample.halfBumped ∧
    requeueCount (World.fresh 0) Sample.job = 0 ∧ requeueCount Sample.halfBumped Sample.job = 1 ∧
    ¬ Expiring Sample.halfBumped ∧
    Exec Sem (bumpRequeueCounter {} Sample.job) Sample.halfBumped es' (.ok 2) w'' := by
  have hfirst := Sample.exec_bump Sample.expireRefused (World.fresh 0)
  have hsecond := Sample.exec_bump (fun _ => none) Sample.halfBumped
  refine ⟨_, _, _, _, hfirst, by decide +kernel, by decide +kernel, fun hexpiring => ?_, hsecond⟩
  obtain ⟨fields, hbump⟩ := hashes_bump_self (World.fresh 0) (requeueKey Sample.job) requeueField
  cases hexpiring Sample.job _ hbump

end InvoiceOcr
