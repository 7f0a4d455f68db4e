/-
  File:      InvoiceOcr/Replay.lean
  Subject:   REPLAYING A SCHEDULE. An executable scheduler of the system, so that a concrete run
             can be evaluated.

  * `World.act`, `World.answer` -- what a storage call does when it takes effect, as a function, and
    the answer of a call under given faults;
  * `Move`, `Deployment.replay` -- schedules, and the trace and state they lead to;
  * **`replay_run`** -- what is replayed is a run;
  * `Sample` -- a deployment, a job and a URL to replay with.
-/
import InvoiceOcr.Deployment

namespace InvoiceOcr

open PyJson Async

/-! ## 1. Storage calls as functions -/

/-- The effect of a storage call, if it has one; services are not answered here. -/
def World.act (w : World) : (o : Op) → Option (Ans o × World)
  | .insertJob j status url =>
      (w.jobs.insert
        { jobId := j, status, imageUrl := url, createdAt := w.now, updatedAt := w.now }).map
        fun t => ((), { w with jobs := t })
  | .updateJob j set =>
      (w.jobs.modify j (set.apply w.now)).map fun t => ((), { w with jobs := t })
  | .touchJob j => (w.jobs.modify j (touchRow w.now)).map fun t => ((), { w with jobs := t })
  | .selectJob j => some (w.jobs.find j, w)
  | .selectStale p q => some (w.jobs.select (JobRow.isStale w.now p q), w)
  | .deleteOld p =>
      some ((w.jobs.select (JobRow.isOld w.now p)).length,
        { w with jobs := w.jobs.delete (JobRow.isOld w.now p) })
  | .lpush m => some ((), { w with queue := m :: w.queue })
  | .brpop => some (w.queue.getLast?, { w with queue := w.queue.dropLast })
  | .llen => some (w.queue.length, w)
  | .get key => some (w.strings key, w)
  | .setex key _ value =>
      some ((), { w with strings := fun k => if k = key then some value else w.strings k })
  | .hincrby key field => some (w.counter key field + 1, w.bump key field)
  | .expire key _ => some ((), w.setExpiry key)
  | _ => none

theorem act_service {o : Op} (h : o.isStage = true) (w : World) : w.act o = none := by
  cases o <;> first | rfl | cases h

/-- The function computes an effect. -/
theorem act_effect {w w' : World} {o : Op} {a : Ans o} (h : w.act o = some (a, w')) :
    Effect w o a w' := by
  cases o with
  | insertJob j status url =>
    obtain ⟨t, ht, he⟩ := Option.map_eq_some_iff.mp h
    cases he
    exact ⟨t, ht, rfl⟩
  | updateJob j set =>
    obtain ⟨t, ht, he⟩ := Option.map_eq_some_iff.mp h
    cases he
    exact ⟨t, ht, rfl⟩
  | touchJob j =>
    obtain ⟨t, ht, he⟩ := Option.map_eq_some_iff.mp h
    cases he
    exact ⟨t, ht, rfl⟩
  | brpop =>
    cases h
    cases hq : w.queue.getLast? with
    | none =>
      have hnil := List.getLast?_eq_none_iff.mp hq
      refine ⟨hnil, ?_⟩
      rw [hnil]
      cases w
      cases hnil
      rfl
    | some m =>
      obtain ⟨q, hq⟩ := List.getLast?_eq_some_iff.mp hq
      exact ⟨q, hq, by rw [hq, List.dropLast_concat]⟩
  | selectJob => cases h; exact ⟨rfl, rfl⟩
  | selectStale => cases h; exact ⟨rfl, rfl⟩
  | deleteOld => cases h; exact ⟨rfl, rfl⟩
  | lpush => cases h; exact rfl
  | llen => cases h; exact ⟨rfl, rfl⟩
  | get => cases h; exact ⟨rfl, rfl⟩
  | setex => cases h; exact rfl
  | hincrby => cases h; exact ⟨rfl, rfl⟩
  | expire => cases h; exact rfl
  | request => cases h
  | infer => cases h
  | acquire => cases h
  | generateContent => cases h
  | sleep => cases h

/-- Where the function has no effect there is none. -/
theorem not_effect_of_act {w : World} {o : Op} (h : w.act o = none) (ho : o.isStage = false)
    (a : Ans o) (w' : World) : ¬ Effect w o a w' := by
  cases o with
  | insertJob j status url =>
    intro ⟨t, ht, _⟩
    have hnone := Option.map_eq_none_iff.mp h
    cases hnone.symm.trans ht
  | updateJob j set =>
    intro ⟨t, ht, _⟩
    have hnone := Option.map_eq_none_iff.mp h
    cases hnone.symm.trans ht
  | touchJob j =>
    intro ⟨t, ht, _⟩
    have hnone := Option.map_eq_none_iff.mp h
    cases hnone.symm.trans ht
  | _ => first | (cases h; done) | cases ho

/-- A service answers what it likes. -/
theorem service_sem {o : Op} (h : o.isStage = true) (w : World) (r : Except PyExc (Ans o)) :
    Sem w o r w := by
  cases r with
  | error e => exact rfl
  | ok a => cases o <;> first | exact rfl | cases h

/-- The answer of a call under given faults: an exception where there is a fault, else the effect,
    or what the services say. -/
def World.answer (faults : Op → Option PyExc) (services : (o : Op) → Except PyExc (Ans o))
    (w : World) (o : Op) : Except PyExc (Ans o) × World :=
  match faults o with
  | some e => (.error e, w)
  | none =>
    match w.act o with
    | some (a, w') => (.ok a, w')
    | none => if o.isStage then (services o, w) else (.error (.postgresError []), w)

theorem answer_sem (faults : Op → Option PyExc) (services : (o : Op) → Except PyExc (Ans o))
    (w : World) (o : Op) :
    Sem w o (w.answer faults services o).1 (w.answer faults services o).2 := by
  unfold World.answer
  split
  · exact rfl
  · split
    · next a w' ha => exact act_effect ha
    · split
      · next hstage => exact service_sem hstage w (services o)
      · exact rfl

/-! ## 2. Schedules -/

/-- What is to happen next: the call of task `i` takes effect or raises, a service answers it, a
    task starts, time passes. -/
inductive Move where
  | run (i : Nat)
  | fail (i : Nat) (e : PyExc)
  | serve (i : Nat) (services : (o : Op) → Except PyExc (Ans o))
  | spawn (n : TaskName)
  | tick (d : Nat)

/-- Freshness, decided. -/
def isFresh (names : List TaskName) (n : TaskName) : Bool :=
  names.all fun m =>
    match m, n with
    | .submit j' _, .submit j _ => j' ≠ j
    | _, _ => true

theorem fresh_of_isFresh {names : List TaskName} {n : TaskName} (h : isFresh names n = true) :
    fresh names n := by
  cases n with
  | submit j u =>
    intro u' hm
    have hne := List.all_eq_true.mp h _ hm
    simp at hne
  | _ => trivial

/-- States and traces of the system. -/
abbrev SysState := State Op Ans PyExc World TaskName

abbrev SysTrace := Trace Op Ans PyExc World TaskName

variable (D : Deployment)

/-- One move. -/
def Deployment.move (s : SysState) : Move → Option (Label Op Ans PyExc TaskName × SysState)
  | .run i =>
    match s.tasks[i]? with
    | some ⟨n, .call o k⟩ =>
      match s.world.act o with
      | some (a, w') => some (.call i o (.ok a), ⟨w', s.tasks.set i ⟨n, k (.ok a)⟩⟩)
      | none => none
    | _ => none
  | .fail i e =>
    match s.tasks[i]? with
    | some ⟨n, .call o k⟩ =>
      some (.call i o (.error e), ⟨s.world, s.tasks.set i ⟨n, k (.error e)⟩⟩)
    | _ => none
  | .serve i services =>
    match s.tasks[i]? with
    | some ⟨n, .call o k⟩ =>
      if o.isStage then
        some (.call i o (services o), ⟨s.world, s.tasks.set i ⟨n, k (services o)⟩⟩)
      else none
    | _ => none
  | .spawn n =>
    if isFresh (s.tasks.map (·.name)) n then
      some (.spawn n, ⟨s.world, s.tasks ++ [⟨n, D.boot n⟩]⟩)
    else none
  | .tick d => some (.drift, ⟨{ s.world with now := s.world.now + d }, s.tasks⟩)

/-- The schedule from a trace and a state on. -/
def Deployment.replayFrom : List Move → SysTrace → SysState → Option (SysTrace × SysState)
  | [], tr, s => some (tr, s)
  | m :: ms, tr, s =>
    match D.move s m with
    | some (l, s') => Deployment.replayFrom ms ((s, l) :: tr) s'
    | none => none

/-- The schedule from a world without tasks. -/
def Deployment.replay (w₀ : World) (ms : List Move) : Option (SysTrace × SysState) :=
  D.replayFrom ms [] ⟨w₀, []⟩

variable {D}

theorem step_of_move {s s' : SysState} {m : Move} {l : Label Op Ans PyExc TaskName}
    (h : D.move s m = some (l, s')) : D.sys.Step s l s' := by
  cases m with
  | run i =>
    simp only [Deployment.move] at h
    split at h
    · next n o k ht =>
      split at h
      · next a w' ha =>
        cases h
        exact .call ht (act_effect ha)
      · simp at h
    · simp at h
  | fail i e =>
    simp only [Deployment.move] at h
    split at h
    · next n o k ht =>
      cases h
      exact .call ht rfl
    · simp at h
  | serve i services =>
    simp only [Deployment.move] at h
    split at h
    · next n o k ht =>
      split at h
      · next hstage =>
        cases h
        exact .call ht (service_sem hstage s.world _)
      · simp at h
    · simp at h
  | spawn n =>
    simp only [Deployment.move] at h
    split at h
    · next hf =>
      cases h
      exact .spawn (fresh_of_isFresh hf)
    · simp at h
  | tick d =>
    cases h
    exact .drift (.tick _ d)

theorem replayFrom_run {w₀ : World} {ms : List Move} {tr tr' : SysTrace} {s s' : SysState}
    (hr : D.sys.Run w₀ tr s) (h : D.replayFrom ms tr s = some (tr', s')) :
    D.sys.Run w₀ tr' s' := by
  induction ms generalizing tr s with
  | nil =>
    cases h
    exact hr
  | cons m ms ih =>
    simp only [Deployment.replayFrom] at h
    split at h
    · next l s₁ hm => exact ih (.step hr (step_of_move hm)) h
    · simp at h

/-- **What is replayed is a run.** -/
theorem replay_run {w₀ : World} {ms : List Move} {tr : SysTrace} {s : SysState}
    (h : D.replay w₀ ms = some (tr, s)) : D.sys.Run w₀ tr s :=
  replayFrom_run .start h

theorem replay_get_run {w₀ : World} {ms : List Move} (h : (D.replay w₀ ms).isSome = true) :
    D.sys.Run w₀ ((D.replay w₀ ms).get h).1 ((D.replay w₀ ms).get h).2 :=
  replay_run (Option.some_get h).symm

/-! ## 3. Something to replay with -/

namespace Sample

/-- Libraries that see a one-pixel image in every download, with pHash `0`; Triton's input cannot
    be built. -/
def lib : Externals where
  hostname _ := .ok (some "img-campaign.gotit.vn".toList)
  redirectUrl _ location := .ok location
  openImage raw := .ok ⟨"RGB".toList, 1, 1, raw⟩
  exifTranspose _ := .ok none
  convertRgb img := .ok img
  thumbnail img _ := .ok img
  imagePhash _ := .ok "0".toList
  letterboxed _ _ _ _ _ := .error (.exception [])
  crop img _ _ _ _ := .ok img
  encodeJpeg img := .ok img.pixels
  sourceDir := "/app/src".toList
  readFile _ := none
  repr s := '\'' :: (s ++ ['\''])
  fixed3 _ := []
  floatText _ := []

/-- Default settings, one kind of worker that leaves invoices as they are. -/
def deployment : Deployment := ⟨{}, lib, fun _ => ⟨"v3.7".toList, .ok⟩⟩

def job : Uuid := (Uuid.parse (List.replicate 32 '0')).get (by decide)

def url : Str := "https://img-campaign.gotit.vn/1.jpg".toList

/-- A submitted job waits 31 minutes in a worker's hands after the status check, and the sweeper
    takes it for a stale PENDING one. -/
def sweptWhileHeld : List Move :=
  [.spawn (.submit job url), .run 0, .run 0, .run 0, .spawn (.worker 0), .run 1, .run 1,
    .tick (minutes 31), .spawn .sweep, .run 2, .run 2]

theorem replays_sweptWhileHeld :
    (deployment.replay (World.fresh 0) sweptWhileHeld).isSome = true := by decide +kernel

/-- The run of that schedule, and its last state. -/
def sweptBefore : SysTrace × SysState :=
  (deployment.replay (World.fresh 0) sweptWhileHeld).get replays_sweptWhileHeld

theorem run_sweptBefore : deployment.sys.Run (World.fresh 0) sweptBefore.1 sweptBefore.2 :=
  replay_get_run replays_sweptWhileHeld

/-- Then the worker goes on with its PROCESSING mark. -/
theorem moves_swept : (deployment.move sweptBefore.2 (.run 1)).isSome = true := by decide +kernel

def sweptLabel : Label Op Ans PyExc TaskName :=
  ((deployment.move sweptBefore.2 (.run 1)).get moves_swept).1

/-- The run with that step, and the state after it. -/
def swept : SysTrace × SysState :=
  ((sweptBefore.2, sweptLabel) :: sweptBefore.1,
    ((deployment.move sweptBefore.2 (.run 1)).get moves_swept).2)

theorem step_swept : deployment.sys.Step sweptBefore.2 sweptLabel swept.2 :=
  step_of_move (Option.some_get moves_swept).symm

theorem run_swept : deployment.sys.Run (World.fresh 0) swept.1 swept.2 :=
  .step run_sweptBefore step_swept

/-- A submitted job that nobody pops for 31 minutes is swept. -/
def leftPending : List Move :=
  [.spawn (.submit job url), .run 0, .run 0, .run 0, .tick (minutes 31), .spawn .sweep, .run 1,
    .run 1]

theorem replays_leftPending :
    (deployment.replay (World.fresh 0) leftPending).isSome = true := by decide +kernel

def stale : SysTrace × SysState :=
  (deployment.replay (World.fresh 0) leftPending).get replays_leftPending

theorem run_stale : deployment.sys.Run (World.fresh 0) stale.1 stale.2 :=
  replay_get_run replays_leftPending

/-- A worker's download fails; it counts the failure and hands the job back. -/
def requeue : List Move :=
  [.spawn (.submit job url), .run 0, .run 0, .run 0, .spawn (.worker 0), .run 1, .run 1, .run 1,
    .fail 1 (.httpxConnectError []), .run 1, .run 1, .run 1, .run 1]

theorem replays_requeue : (deployment.replay (World.fresh 0) requeue).isSome = true := by
  decide +kernel

def requeued : SysTrace × SysState :=
  (deployment.replay (World.fresh 0) requeue).get replays_requeue

theorem run_requeued : deployment.sys.Run (World.fresh 0) requeued.1 requeued.2 :=
  replay_get_run replays_requeue

end Sample

end InvoiceOcr
