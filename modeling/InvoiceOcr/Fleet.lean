/-
  File:      InvoiceOcr/Fleet.lean
  Subject:   THE FLEET: worker processes that are deployed, told to stop and killed at any moment, and
             API requests, over one Postgres and one Redis. The system of Deployment.lean, which has
             tasks and no processes, covers it.

  * `Fleet`, `Fleet.Step` -- the processes of Shutdown.lean with the world under them; a kill takes a
    process away in the middle of whatever it does;
  * `Spot`, `Place`, `Fleet.bodies` -- where a fleet runs bodies;
  * `Change`, `change_of_step` -- STEP of one process: a body starts, goes on, or is given up;
  * `Covers`, `covers_step` -- STEP: a step of the fleet is one of the system, or none;
  * **`fleet_is_covered`** -- RUN: every run of the fleet is one of the system, with the same calls
    answered in the same order and the same world. What holds in every run of the system holds in the
    fleet.
-/
import InvoiceOcr.Shutdown

namespace InvoiceOcr

open PyJson Async

/-! ## 1. The fleet -/

/-- What process `n` runs with; `leads` says which processes have the purge's `WORKER_ID`. -/
def Deployment.plan (D : Deployment) (leads : Nat → Bool) (n : Nat) : Plan :=
  ⟨D.cfg, (D.worker n).lifecycle, leads n⟩

structure Fleet where
  world : World
  instances : List Instance
  requests : List (Task Op Ans PyExc TaskName)

def Fleet.boot (w : World) : Fleet := ⟨w, [], []⟩

/-- A process that was killed. -/
def Instance.killed : Instance := ⟨.raised (.osError []), true, false, false, [], []⟩

inductive FleetLabel where
  | deploy
  | quiet (n : Nat) (l : InstanceLabel)
  | call (o : Op) (r : Except PyExc (Ans o))
  | kill (n : Nat)
  | request (j : Uuid) (u : Str)
  | drift

/-- The step is a call of a store or a service other than the read of the rate limit. -/
def InstanceLabel.Answered : InstanceLabel → Prop
  | .call _ _ _ => True
  | .daemon _ (.call _ _) => True
  | _ => False

/-- **One step of a fleet.** -/
inductive Fleet.Step (D : Deployment) (leads : Nat → Bool) : Fleet → FleetLabel → Fleet → Prop where
  | deploy {f : Fleet} :
      Fleet.Step D leads f .deploy { f with instances := f.instances ++ [Instance.boot] }
  | quiet {f : Fleet} {n : Nat} {P P' : Instance} {l : InstanceLabel}
      (h : f.instances[n]? = some P) (hs : Instance.Step (D.plan leads n) P l P') (hl : ¬ l.Answered) :
      Fleet.Step D leads f (.quiet n l) { f with instances := f.instances.set n P' }
  | slotCall {f : Fleet} {n i : Nat} {P P' : Instance} {o : Op} {r : Except PyExc (Ans o)} {w' : World}
      (h : f.instances[n]? = some P) (hs : Instance.Step (D.plan leads n) P (.call i o r) P')
      (hsem : Sem f.world o r w') :
      Fleet.Step D leads f (.call o r) { f with world := w', instances := f.instances.set n P' }
  | daemonCall {f : Fleet} {n d : Nat} {P P' : Instance} {o : Op} {r : Except PyExc (Ans o)}
      {w' : World} (h : f.instances[n]? = some P)
      (hs : Instance.Step (D.plan leads n) P (.daemon d (.call o r)) P') (hsem : Sem f.world o r w') :
      Fleet.Step D leads f (.call o r) { f with world := w', instances := f.instances.set n P' }
  -- SIGKILL, or the machine is lost
  | kill {f : Fleet} {n : Nat} (h : n < f.instances.length) :
      Fleet.Step D leads f (.kill n) { f with instances := f.instances.set n Instance.killed }
  | request {f : Fleet} {j : Uuid} {u : Str} (hfresh : fresh (f.requests.map (·.name)) (.submit j u)) :
      Fleet.Step D leads f (.request j u)
        { f with requests := f.requests ++ [⟨.submit j u, D.boot (.submit j u)⟩] }
  | requestCall {f : Fleet} {m : Nat} {n : TaskName} {o : Op} {k : Except PyExc (Ans o) → Py Unit}
      {r : Except PyExc (Ans o)} {w' : World} (h : f.requests[m]? = some ⟨n, .call o k⟩)
      (hsem : Sem f.world o r w') :
      Fleet.Step D leads f (.call o r) { f with world := w', requests := f.requests.set m ⟨n, k r⟩ }
  | drift {f : Fleet} {w' : World} (hd : Drift f.world w') :
      Fleet.Step D leads f .drift { f with world := w' }

/-- The runs of a fleet from a world without processes; the labels are the latest first. -/
inductive Fleet.Run (D : Deployment) (leads : Nat → Bool) (w₀ : World) :
    List FleetLabel → Fleet → Prop where
  | start : Fleet.Run D leads w₀ [] (Fleet.boot w₀)
  | step {tr : List FleetLabel} {f f' : Fleet} {l : FleetLabel} (h : Fleet.Run D leads w₀ tr f)
      (hs : Fleet.Step D leads f l f') : Fleet.Run D leads w₀ (l :: tr) f'

/-- The answered calls of a fleet, the latest first. -/
def fleetCalls : List FleetLabel → List (Event Op Ans PyExc)
  | [] => []
  | .call o r :: tr => ⟨o, r⟩ :: fleetCalls tr
  | _ :: tr => fleetCalls tr

/-- The answered calls of a system, the latest first. -/
def systemCalls : SysTrace → List (Event Op Ans PyExc)
  | [] => []
  | (_, .call _ o r) :: tr => ⟨o, r⟩ :: systemCalls tr
  | _ :: tr => systemCalls tr

/-! ## 2. Where a fleet runs bodies -/

/-- A slot or a daemon of one process. -/
inductive Spot where
  | slot (i : Nat)
  | daemon (d : Nat)
  deriving DecidableEq

inductive Place where
  | spot (n : Nat) (q : Spot)
  | request (m : Nat)
  deriving DecidableEq

/-- The body a slot is in. -/
def Slot.body? : Slot → Option (Py Unit)
  | .body rest => some rest
  | _ => none

def Daemon.body? : Daemon → Option (Py Unit)
  | .body rest => some rest
  | _ => none

/-- What the passes of a daemon are tasks of; the refresh of the rate limit runs no body. -/
def DaemonName.task : DaemonName → TaskName
  | .nightlyPurge => .purge
  | _ => .sweep

/-- The bodies of process `n`. -/
def Instance.bodies (n : Nat) (P : Instance) : Spot → Option (TaskName × Py Unit)
  | .slot i => P.slots[i]?.bind fun slot => slot.body?.map fun rest => (.worker n, rest)
  | .daemon d => P.daemons[d]?.bind fun x => x.2.body?.map fun rest => (x.1.task, rest)

def Fleet.bodies (f : Fleet) : Place → Option (TaskName × Py Unit)
  | .spot n q => f.instances[n]?.bind fun P => P.bodies n q
  | .request m => f.requests[m]?.map fun t => (t.name, t.rest)

section Steps

variable {D : Deployment} {leads : Nat → Bool} {w₀ : World} {tr : List FleetLabel} {f f' : Fleet}
  {n i d : Nat} {P P' : Instance} {l : InstanceLabel}

/-- A slot that went on with `q` is in no other body. -/
theorem body?_slot_after {q rest : Py Unit} (h : (Slot.after q).body? = some rest) : rest = q := by
  cases q with
  | ret a => cases h
  | raise e => cases h
  | call o k => cases h; rfl

theorem body?_daemon_after {name : DaemonName} {q rest : Py Unit}
    (h : (Daemon.after name q).body? = some rest) : rest = q := by
  cases q with
  | ret a => cases name <;> cases h
  | raise e => cases h
  | call o k => cases h; rfl

/-- The bodies after one slot has moved. -/
theorem bodies_set_slot {new : Slot} {q : Spot} {b : TaskName × Py Unit}
    (h : Instance.bodies n { P with slots := P.slots.set i new } q = some b) :
    (q = .slot i ∧ ∃ rest, new.body? = some rest ∧ b = (.worker n, rest)) ∨
      (q ≠ .slot i ∧ P.bodies n q = some b) := by
  cases q with
  | slot j =>
    obtain ⟨slot, hslot, hb⟩ := Option.bind_eq_some_iff.mp h
    rcases getElem?_set_cases hslot with ⟨rfl, rfl⟩ | ⟨hne, hslot⟩
    · obtain ⟨rest, hrest, he⟩ := Option.map_eq_some_iff.mp hb
      exact Or.inl ⟨rfl, rest, hrest, he.symm⟩
    · exact Or.inr ⟨fun he => hne (Spot.slot.inj he), Option.bind_eq_some_iff.mpr ⟨slot, hslot, hb⟩⟩
  | daemon d => exact Or.inr ⟨fun he => (by cases he), h⟩

/-- The bodies after one daemon has moved. -/
theorem bodies_set_daemon {name : DaemonName} {new : Daemon} {q : Spot} {b : TaskName × Py Unit}
    (h : Instance.bodies n { P with daemons := P.daemons.set d (name, new) } q = some b) :
    (q = .daemon d ∧ ∃ rest, new.body? = some rest ∧ b = (name.task, rest)) ∨
      (q ≠ .daemon d ∧ P.bodies n q = some b) := by
  cases q with
  | slot i => exact Or.inr ⟨fun he => (by cases he), h⟩
  | daemon j =>
    obtain ⟨x, hx, hb⟩ := Option.bind_eq_some_iff.mp h
    rcases getElem?_set_cases hx with ⟨rfl, rfl⟩ | ⟨hne, hx⟩
    · obtain ⟨rest, hrest, he⟩ := Option.map_eq_some_iff.mp hb
      exact Or.inl ⟨rfl, rest, hrest, he.symm⟩
    · exact Or.inr ⟨fun he => hne (Spot.daemon.inj he), Option.bind_eq_some_iff.mpr ⟨x, hx, hb⟩⟩

/-- `new` has the bodies `old` had, with the one at `q` replaced by `b`, or less. -/
def Puts {π : Type} (old new : π → Option (TaskName × Py Unit)) (q : π) (b : TaskName × Py Unit) :
    Prop :=
  ∀ q' b', new q' = some b' → (q' = q ∧ b' = b) ∨ (q' ≠ q ∧ old q' = some b')

/-- **What a step of one process does to its bodies**: it gives them up, starts one, or goes on with one
    that was answered. -/
inductive Change (D : Deployment) {π : Type} (old : π → Option (TaskName × Py Unit)) :
    Option (Event Op Ans PyExc) → (π → Option (TaskName × Py Unit)) → Prop where
  | drop {new : π → Option (TaskName × Py Unit)} (h : ∀ q b, new q = some b → old q = some b) :
      Change D old none new
  | start {new : π → Option (TaskName × Py Unit)} {q : π} {name : TaskName}
      (hname : ∀ j u, name ≠ .submit j u) (h : Puts old new q (name, D.boot name)) :
      Change D old none new
  | call {new : π → Option (TaskName × Py Unit)} {q : π} {n : TaskName} {o : Op}
      {k : Except PyExc (Ans o) → Py Unit} {r : Except PyExc (Ans o)}
      (hq : old q = some (n, .call o k)) (h : Puts old new q (n, k r)) :
      Change D old (some ⟨o, r⟩) new

/-- The call of a step. -/
def InstanceLabel.event? : InstanceLabel → Option (Event Op Ans PyExc)
  | .call _ o r => some ⟨o, r⟩
  | .daemon _ (.call o r) => some ⟨o, r⟩
  | _ => none

/-- A slot that moves without a call. -/
theorem change_slot {new : Slot} (hnew : new.body? = none) :
    Change D (P.bodies n) none (Instance.bodies n { P with slots := P.slots.set i new }) := by
  refine .drop fun q b hb => ?_
  rcases bodies_set_slot hb with ⟨_, rest, hrest, _⟩ | ⟨_, hb⟩
  · rw [hnew] at hrest
    cases hrest
  · exact hb

theorem change_daemon {name : DaemonName} {new : Daemon} (hnew : new.body? = none) :
    Change D (P.bodies n) none
      (Instance.bodies n { P with daemons := P.daemons.set d (name, new) }) := by
  refine .drop fun q b hb => ?_
  rcases bodies_set_daemon hb with ⟨_, rest, hrest, _⟩ | ⟨_, hb⟩
  · rw [hnew] at hrest
    cases hrest
  · exact hb

/-- A daemon moves to what is left of `q`. -/
theorem puts_daemon {name : DaemonName} {q : Py Unit} :
    Puts (P.bodies n) (Instance.bodies n { P with daemons := P.daemons.set d (name, .after name q) })
      (.daemon d) (name.task, q) := by
  intro q' b hb
  rcases bodies_set_daemon hb with ⟨hq', rest, hrest, rfl⟩ | hold
  · exact Or.inl ⟨hq', by rw [body?_daemon_after hrest]⟩
  · exact Or.inr hold

theorem puts_slot {q : Py Unit} :
    Puts (P.bodies n) (Instance.bodies n { P with slots := P.slots.set i (.after q) })
      (.slot i) (.worker n, q) := by
  intro q' b hb
  rcases bodies_set_slot hb with ⟨hq', rest, hrest, rfl⟩ | hold
  · exact Or.inl ⟨hq', by rw [body?_slot_after hrest]⟩
  · exact Or.inr hold

/-- STEP of one process. -/
theorem change_of_step (hs : Instance.Step (D.plan leads n) P l P') :
    Change D (P.bodies n) l.event? (P'.bodies n) := by
  cases hs with
  | start hm =>
    -- the slots are at the top of their loops, the daemons at the top of theirs
    refine .drop fun q b hb => ?_
    cases q with
    | slot i =>
      obtain ⟨slot, hslot, hbody⟩ := Option.bind_eq_some_iff.mp hb
      rw [List.eq_of_mem_replicate (List.mem_of_getElem? hslot)] at hbody
      cases hbody
    | daemon d =>
      obtain ⟨x, hx, hbody⟩ := Option.bind_eq_some_iff.mp hb
      obtain ⟨name, _, rfl⟩ := List.mem_map.mp (List.mem_of_getElem? hx)
      cases name <;> simp only [Daemon.boot] at hbody
      case nightlyPurge => split at hbody <;> cases hbody
      all_goals cases hbody
  | enter hi _ => exact .start (fun _ _ he => by cases he) puts_slot
  | leave hi _ => exact change_slot rfl
  | @call i o k hi r =>
    refine .call (q := .slot i) (n := .worker n) (k := k) ?_ puts_slot
    exact Option.bind_eq_some_iff.mpr ⟨_, hi, rfl⟩
  | @daemon d name a b l hd hstep =>
    cases hstep with
    | sweep _ => exact .start (fun _ _ he => by cases he) puts_daemon
    | purge => exact .start (fun _ _ he => by cases he) puts_daemon
    | @call _ o k r =>
      refine .call (q := .daemon d) (n := name.task) (k := k) ?_ puts_daemon
      exact Option.bind_eq_some_iff.mpr ⟨_, hd, rfl⟩
    | stop _ => exact change_daemon rfl
    | refresh _ => exact change_daemon rfl
    | purgeSleep _ => exact change_daemon rfl
    | refreshed => exact change_daemon rfl
    | wake _ => exact change_daemon rfl
    | purgeStop _ => exact change_daemon rfl
    | release _ => exact change_daemon rfl
  | cancel _ _ _ => exact change_daemon rfl
  | _ => exact .drop fun q b hb => hb

/-! ## 3. The system covers the fleet -/

/-- The system is where the fleet is: the same world, every body of the fleet a task of its own, and no
    identifier given out that the fleet has not given out. -/
structure Covers (f : Fleet) (s : SysState) : Prop where
  world : s.world = f.world
  hosts : ∃ task, Hosts f.bodies s task
  names : ∀ t ∈ s.tasks, ∀ j u, t.name = .submit j u → .submit j u ∈ f.requests.map (·.name)

/-- What the fleet has answered is what the system has. -/
def Follows (D : Deployment) (w₀ : World) (tr : List FleetLabel) (f : Fleet) : Prop :=
  ∃ tr' s, D.sys.Run w₀ tr' s ∧ Covers f s ∧ systemCalls tr' = fleetCalls tr

/-- Process `n` has moved: the change of its bodies is one of the fleet's. -/
theorem change_fleet {w' : World} {c : Option (Event Op Ans PyExc)} (h : f.instances[n]? = some P)
    (hc : Change D (P.bodies n) c (P'.bodies n)) :
    Change D f.bodies c (Fleet.bodies { f with world := w', instances := f.instances.set n P' }) := by
  -- a body of the fleet afterwards is one of the process, or one that was there
  have hplace : ∀ {q b}, Fleet.bodies { f with world := w', instances := f.instances.set n P' } q
      = some b → (∃ q', q = .spot n q' ∧ P'.bodies n q' = some b) ∨
        ((∀ q', q ≠ .spot n q') ∧ f.bodies q = some b) := by
    intro q b hb
    cases q with
    | request m => exact Or.inr ⟨fun _ he => (by cases he), hb⟩
    | spot m q' =>
      obtain ⟨Q, hQ, hbody⟩ := Option.bind_eq_some_iff.mp hb
      rcases getElem?_set_cases hQ with ⟨rfl, rfl⟩ | ⟨hne, hQ⟩
      · exact Or.inl ⟨q', rfl, hbody⟩
      · exact Or.inr ⟨fun _ he => hne (Place.spot.inj he).1,
          Option.bind_eq_some_iff.mpr ⟨Q, hQ, hbody⟩⟩
  have hthere : ∀ {q b}, P.bodies n q = some b → f.bodies (.spot n q) = some b := fun hb =>
    Option.bind_eq_some_iff.mpr ⟨P, h, hb⟩
  have hputs : ∀ {q b}, Puts (P.bodies n) (P'.bodies n) q b → Puts f.bodies
      (Fleet.bodies { f with world := w', instances := f.instances.set n P' }) (.spot n q) b := by
    intro q b hp q' b' hb
    rcases hplace hb with ⟨q₁, rfl, hbody⟩ | ⟨hne, hold⟩
    · rcases hp q₁ b' hbody with ⟨rfl, rfl⟩ | ⟨hne, hold⟩
      · exact Or.inl ⟨rfl, rfl⟩
      · exact Or.inr ⟨fun he => hne (Place.spot.inj he).2, hthere hold⟩
    · exact Or.inr ⟨hne q, hold⟩
  cases hc with
  | drop hle =>
    refine .drop fun q b hb => ?_
    rcases hplace hb with ⟨q', rfl, hbody⟩ | ⟨_, hold⟩
    · exact hthere (hle q' b hbody)
    · exact hold
  | start hname hp => exact .start hname (hputs hp)
  | call hq hp => exact .call (hthere hq) (hputs hp)

/-- A change without a call, in the system: a task starts or nothing happens. -/
theorem follows_quiet (hf : Follows D w₀ tr f) (hc : Change D f.bodies none f'.bodies)
    (hworld : f'.world = f.world) (hrequests : f'.requests = f.requests)
    (hl : fleetCalls tr = fleetCalls tr') : Follows D w₀ tr' f' := by
  obtain ⟨tr₁, s, hrun, ⟨hw, ⟨task, hhosts⟩, hnames⟩, hcalls⟩ := hf
  cases hc with
  | drop hle =>
    refine ⟨tr₁, s, hrun, ⟨hw.trans hworld.symm, ⟨task, hhosts.leave hle⟩, ?_⟩, hcalls.trans hl⟩
    rw [hrequests]
    exact hnames
  | @start _ q name hname hp =>
    have hallow : D.sys.allow (s.tasks.map (·.name)) name := by
      cases name with
      | submit j u => exact absurd rfl (hname j u)
      | _ => exact trivial
    refine ⟨_, _, hrun.step (.spawn hallow), ⟨hw.trans hworld.symm, ⟨_, hhosts.start hp⟩, ?_⟩,
      hcalls.trans hl⟩
    intro t ht j u he
    rw [hrequests]
    rcases List.mem_append.mp ht with ht | ht
    · exact hnames t ht j u he
    · rw [List.mem_singleton.mp ht] at he
      exact absurd he (hname j u)

/-- An answered call, in the system. -/
theorem follows_call {o : Op} {r : Except PyExc (Ans o)} {w' : World} (hf : Follows D w₀ tr f)
    (hc : Change D f.bodies (some ⟨o, r⟩) f'.bodies) (hsem : Sem f.world o r w')
    (hworld : f'.world = w') (hrequests : f'.requests.map (·.name) = f.requests.map (·.name)) :
    Follows D w₀ (.call o r :: tr) f' := by
  obtain ⟨tr₁, s, hrun, ⟨hw, ⟨task, hhosts⟩, hnames⟩, hcalls⟩ := hf
  cases hc with
  | @call _ q name _ k _ hq hp =>
    have hat := hhosts.there hq
    refine ⟨_, _, hrun.step (.call hat (hw ▸ hsem)), ⟨hworld.symm, ⟨task, hhosts.call hq hp⟩, ?_⟩,
      congrArg (List.cons _) hcalls⟩
    intro t ht j u he
    rw [hrequests]
    rcases List.mem_or_eq_of_mem_set ht with ht | rfl
    · exact hnames t ht j u he
    · exact hnames _ (List.mem_of_getElem? hat) j u he

/-- The bodies of a fleet that has one more process, which is booting. -/
theorem change_deploy : Change D f.bodies none
    (Fleet.bodies { f with instances := f.instances ++ [Instance.boot] }) := by
  refine .drop fun q b hb => ?_
  cases q with
  | request m => exact hb
  | spot m q =>
    obtain ⟨P, hP, hb⟩ := Option.bind_eq_some_iff.mp hb
    rcases getElem?_append_cases hP with ⟨_, rfl⟩ | hP
    · cases q <;> cases hb
    · exact Option.bind_eq_some_iff.mpr ⟨P, hP, hb⟩

/-- A request moves on. -/
theorem change_request {m : Nat} {name : TaskName} {o : Op} {k : Except PyExc (Ans o) → Py Unit}
    {r : Except PyExc (Ans o)} {w' : World} (h : f.requests[m]? = some ⟨name, .call o k⟩) :
    Change D f.bodies (some ⟨o, r⟩)
      (Fleet.bodies { f with world := w', requests := f.requests.set m ⟨name, k r⟩ }) := by
  refine .call (q := .request m) (n := name) (k := k) ?_ fun q b hb => ?_
  · exact Option.map_eq_some_iff.mpr ⟨_, h, rfl⟩
  · cases q with
    | spot n q => exact Or.inr ⟨fun he => (by cases he), hb⟩
    | request m' =>
      obtain ⟨t, ht, rfl⟩ := Option.map_eq_some_iff.mp hb
      rcases getElem?_set_cases ht with ⟨rfl, rfl⟩ | ⟨hne, ht⟩
      · exact Or.inl ⟨rfl, rfl⟩
      · exact Or.inr ⟨fun he => hne (Place.request.inj he), Option.map_eq_some_iff.mpr ⟨t, ht, rfl⟩⟩

/-- STEP: what the fleet does the system can do. -/
theorem follows_step (hf : Follows D w₀ tr f) {l : FleetLabel} (hs : Fleet.Step D leads f l f') :
    Follows D w₀ (l :: tr) f' := by
  cases hs with
  | deploy => exact follows_quiet hf change_deploy rfl rfl rfl
  | @quiet n P P' l h hs hl =>
    have hc := change_of_step hs
    have hnone : l.event? = none := by
      cases l with
      | call i o r => exact absurd trivial hl
      | daemon d l =>
        cases l with
        | call o r => exact absurd trivial hl
        | _ => rfl
      | _ => rfl
    rw [hnone] at hc
    exact follows_quiet hf (change_fleet h hc) rfl rfl rfl
  | slotCall h hs hsem => exact follows_call hf (change_fleet h (change_of_step hs)) hsem rfl rfl
  | daemonCall h hs hsem => exact follows_call hf (change_fleet h (change_of_step hs)) hsem rfl rfl
  | @kill n h =>
    refine follows_quiet hf (change_fleet (List.getElem?_eq_getElem h) (.drop fun q b hb => ?_)) rfl
      rfl rfl
    cases q <;> cases hb
  | @request j u hfresh =>
    obtain ⟨tr₁, s, hrun, ⟨hw, ⟨task, hhosts⟩, hnames⟩, hcalls⟩ := hf
    have hallow : D.sys.allow (s.tasks.map (·.name)) (.submit j u) := by
      intro u' hmem
      obtain ⟨t, ht, he⟩ := List.mem_map.mp hmem
      exact hfresh u' (hnames t ht j u' he)
    refine ⟨_, _, hrun.step (.spawn hallow), ⟨hw, ⟨_, hhosts.start (q := .request f.requests.length)
      fun q b hb => ?_⟩, fun t ht j' u' he => ?_⟩, hcalls⟩
    · cases q with
      | spot n q => exact Or.inr ⟨fun he => (by cases he), hb⟩
      | request m =>
        obtain ⟨t, ht, rfl⟩ := Option.map_eq_some_iff.mp hb
        rcases getElem?_append_cases ht with ⟨rfl, rfl⟩ | ht
        · exact Or.inl ⟨rfl, rfl⟩
        · have hlt := (List.getElem?_eq_some_iff.mp ht).1
          refine Or.inr ⟨fun he => ?_, Option.map_eq_some_iff.mpr ⟨t, ht, rfl⟩⟩
          rw [Place.request.inj he] at hlt
          exact Nat.lt_irrefl _ hlt
    · rw [List.map_append]
      rcases List.mem_append.mp ht with ht | ht
      · exact List.mem_append_left _ (hnames t ht j' u' he)
      · rw [List.mem_singleton.mp ht] at he
        exact List.mem_append_right _ (he ▸ List.mem_cons_self)
  | requestCall h hsem => exact follows_call hf (change_request h) hsem rfl (names_set h)
  | drift hd =>
    obtain ⟨tr₁, s, hrun, ⟨hw, ⟨task, hhosts⟩, hnames⟩, hcalls⟩ := hf
    exact ⟨_, _, hrun.step (.drift (hw ▸ hd)), ⟨rfl, ⟨task, hhosts.drift _⟩, hnames⟩, hcalls⟩

/-- **The system covers the fleet.** However many processes are deployed, stopped and killed, and
    whatever they are in the middle of, the calls that were answered are, in their order, those of a run
    of the system, and the stores are what they are after it. -/
theorem fleet_is_covered (h : Fleet.Run D leads w₀ tr f) :
    ∃ tr' s, D.sys.Run w₀ tr' s ∧ s.world = f.world ∧ systemCalls tr' = fleetCalls tr := by
  have hf : Follows D w₀ tr f := by
    induction h with
    | start =>
      refine ⟨[], ⟨w₀, []⟩, .start, ⟨rfl, ⟨fun _ => 0, hosts_empty fun q => ?_⟩, ?_⟩, rfl⟩
      · cases q <;> rfl
      · exact fun t ht => absurd ht List.not_mem_nil
    | step _ hs ih => exact follows_step ih hs
  obtain ⟨tr', s, hrun, hcovers, hcalls⟩ := hf
  exact ⟨tr', s, hrun, hcovers.world, hcalls⟩

/-- A process that is deployed, is in a pop of its first slot, and is killed when the pop is answered. -/
theorem run_killed : ∃ tr, Fleet.Run Sample.deployment (fun _ => false) (World.fresh 0) tr
    ⟨World.fresh 0, [Instance.killed], []⟩ ∧ fleetCalls tr = [⟨.brpop, .ok none⟩] := by
  have h : Fleet.Run Sample.deployment (fun _ => false) (World.fresh 0) []
      (Fleet.boot (World.fresh 0)) := .start
  have h := h.step .deploy
  have h := h.step (.quiet (n := 0) rfl (.initPool rfl) id)
  have h := h.step (.quiet (n := 0) rfl (.init rfl) id)
  have h := h.step (.quiet (n := 0) rfl (.start rfl) id)
  have h := h.step (.quiet (n := 0) rfl (.enter (i := 0) rfl rfl) id)
  have h := h.step (.slotCall (n := 0) (i := 0) (o := .brpop) (r := .ok none) rfl (.call rfl _)
    ⟨rfl, rfl⟩)
  have h := h.step (.kill (n := 0) (by decide))
  exact ⟨_, h, rfl⟩

theorem fleet_is_covered_killed : ∃ tr' s, Sample.deployment.sys.Run (World.fresh 0) tr' s ∧
    s.world = World.fresh 0 ∧ systemCalls tr' = [⟨.brpop, .ok none⟩] := by
  obtain ⟨tr, h, hcalls⟩ := run_killed
  obtain ⟨tr', s, hrun, hworld, hc⟩ := fleet_is_covered h
  exact ⟨tr', s, hrun, hworld, hc.trans hcalls⟩

end Steps

end InvoiceOcr
