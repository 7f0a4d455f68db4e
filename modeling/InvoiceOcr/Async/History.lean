/-
  File:      InvoiceOcr/Async/History.lean
  Subject:   HISTORIES. The calls a body has made with their answers determine where it stands.
             Nothing here names a program.

  * `Leads` -- the calls that take a body from one point to another; `leads_unique` -- to one point
    only;
  * `history` -- the monitor whose situation is what has happened so far;
  * `wp_of_leads`, `wp_aside` -- its rules: for a stage whose runs are known, and for one whose calls
    do not matter; **`wp_leads`** -- what it has of the start it has of every point led to;
  * `callsOf`, **`Run.leads`** -- in a run of a system the calls of a task lead its body to what is
    left of it.
-/
import InvoiceOcr.Async.System

namespace Async

variable {Op : Type} {Ans : Op → Type} {ε α β W N : Type}

/-! ## 1. Where calls lead -/

/-- **The calls `es`, so answered, take `p` to `q`.** -/
inductive Leads : Proc Op Ans ε α → List (Event Op Ans ε) → Proc Op Ans ε α → Prop where
  | here {p : Proc Op Ans ε α} : Leads p [] p
  | on {p : Proc Op Ans ε α} {es : List (Event Op Ans ε)} {o : Op}
      {k : Except ε (Ans o) → Proc Op Ans ε α} (h : Leads p es (.call o k)) (r : Except ε (Ans o)) :
      Leads p (es ++ [⟨o, r⟩]) (k r)

section Leads

variable {p q q' : Proc Op Ans ε α} {es es' : List (Event Op Ans ε)} {o : Op}
  {k : Except ε (Ans o) → Proc Op Ans ε α} {r : Except ε (Ans o)}

/-- A body that has been led somewhere by calls was led there from its own first call. -/
theorem Leads.first (h : Leads p es q) :
    (es = [] ∧ q = p) ∨
      ∃ o k r es', p = .call o k ∧ es = ⟨o, r⟩ :: es' ∧ Leads (k r) es' q := by
  induction h with
  | here => exact Or.inl ⟨rfl, rfl⟩
  | @on es o k h r ih =>
    rcases ih with ⟨rfl, he⟩ | ⟨o', k', r', es', hp, rfl, hl⟩
    · exact Or.inr ⟨o, k, r, [], he.symm, rfl, .here⟩
    · exact Or.inr ⟨o', k', r', es' ++ [⟨o, r⟩], hp, rfl, hl.on r⟩

theorem leads_nil : Leads p [] q ↔ q = p := by
  refine ⟨fun h => ?_, fun h => h ▸ .here⟩
  rcases h.first with ⟨_, hq⟩ | ⟨_, _, _, _, _, hes, _⟩
  · exact hq
  · cases hes

theorem leads_cons : Leads (.call o k) (⟨o, r⟩ :: es) q ↔ Leads (k r) es q := by
  constructor
  · intro h
    rcases h.first with ⟨hes, _⟩ | ⟨_, _, _, _, hp, hes, hl⟩
    · cases hes
    · cases hp
      cases hes
      exact hl
  · intro h
    induction h with
    | here => exact Leads.on .here r
    | on _ r' ih => exact ih.on r'

/-- **The same calls, so answered, lead to one point.** -/
theorem leads_unique (h : Leads p es q) (h' : Leads p es q') : q = q' := by
  induction es generalizing p with
  | nil => exact (leads_nil.mp h).trans (leads_nil.mp h').symm
  | cons ev es ih =>
    rcases h.first with ⟨hes, _⟩ | ⟨o, k, r, es₁, rfl, hes, hl⟩
    · cases hes
    · cases hes
      exact ih hl (leads_cons.mp h')

/-- Before a call that was answered the body was led to that call. -/
theorem leads_append : Leads p (es ++ es') q ↔ ∃ q', Leads p es q' ∧ Leads q' es' q := by
  induction es generalizing p with
  | nil =>
    refine ⟨fun h => ⟨p, .here, h⟩, fun h => ?_⟩
    obtain ⟨q', hp, hq⟩ := h
    rwa [leads_nil.mp hp] at hq
  | cons ev es ih =>
    constructor
    · intro h
      rcases h.first with ⟨hes, _⟩ | ⟨o, k, r, es₁, rfl, hes, hl⟩
      · cases hes
      · cases hes
        obtain ⟨q', hp, hq⟩ := ih.mp hl
        exact ⟨q', leads_cons.mpr hp, hq⟩
    · intro h
      obtain ⟨q', hp, hq⟩ := h
      rcases hp.first with ⟨hes, _⟩ | ⟨o, k, r, es₁, rfl, hes, hl⟩
      · cases hes
      · cases hes
        exact leads_cons.mpr (ih.mpr ⟨q', hl, hq⟩)

/-- An answered call, in the middle of a history, was the next call there. -/
theorem Leads.at_call (h : Leads p (es ++ ⟨o, r⟩ :: es') q) : ∃ k, Leads p es (.call o k) := by
  obtain ⟨q', hp, hq⟩ := leads_append.mp h
  rcases hq.first with ⟨hes, _⟩ | ⟨_, k, _, _, rfl, hes, _⟩
  · cases hes
  · cases hes
    exact ⟨k, hp⟩

/-- A body is led by calls it can make. -/
theorem Leads.onlyCalls {P : Op → Prop} (h : Leads p es q) (hp : p.OnlyCalls P) :
    q.OnlyCalls P ∧ ∀ ev ∈ es, P ev.op := by
  induction h with
  | here => exact ⟨hp, fun _ hev => absurd hev List.not_mem_nil⟩
  | on _ r ih =>
    refine ⟨ih.1.2 r, fun ev hev => ?_⟩
    rcases List.mem_append.mp hev with hev | hev
    · exact ih.2 ev hev
    · rw [List.mem_singleton.mp hev]
      exact ih.1.1

end Leads

/-! ## 2. The monitor of the history -/

/-- **The monitor whose situation is the history**: `pre` says which call may follow it. -/
def history (pre : List (Event Op Ans ε) → Op → Prop) :
    Monitor Op Ans ε (List (Event Op Ans ε)) where
  pre := pre
  rely _ _ _ := True
  next es o r := es ++ [⟨o, r⟩]

section History

variable {pre : List (Event Op Ans ε) → Op → Prop} {p q : Proc Op Ans ε α}
  {Q : Except ε α → List (Event Op Ans ε) → Prop} {es ds : List (Event Op Ans ε)}

/-- **A stage by its own runs**: every call it can be led to is permitted after what led there, and
    every end it can be led to is one of `Q`. -/
theorem wp_of_leads (hcall : ∀ ds o k, Leads p ds (.call o k) → pre (es ++ ds) o)
    (hend : ∀ ds x, Leads p ds (.ofExcept x) → Q x (es ++ ds)) : wp (history pre) Q p es := by
  induction p generalizing es with
  | ret a =>
    have hq := hend [] (.ok a) .here
    rwa [List.append_nil] at hq
  | raise e =>
    have hq := hend [] (.error e) .here
    rwa [List.append_nil] at hq
  | call o k ih =>
    have hpre := hcall [] o k .here
    rw [List.append_nil] at hpre
    refine ⟨hpre, fun r _ => ih r (fun ds o' k' h => ?_) fun ds x h => ?_⟩
    · have hnext := hcall (⟨o, r⟩ :: ds) o' k' (leads_cons.mpr h)
      rwa [List.append_cons] at hnext
    · have hlast := hend (⟨o, r⟩ :: ds) x (leads_cons.mpr h)
      rwa [List.append_cons] at hlast

/-- A body whose calls leave `I` alone. -/
theorem wp_aside {P : Op → Prop} {I : List (Event Op Ans ε) → Prop}
    (hpre : ∀ es o, I es → P o → pre es o) (hnext : ∀ es o r, I es → P o → I (es ++ [⟨o, r⟩]))
    (hp : p.OnlyCalls P) (hI : I es) : wp (history pre) (fun _ => I) p es := by
  induction p generalizing es with
  | ret a => exact hI
  | raise e => exact hI
  | call o k ih => exact ⟨hpre es o hI hp.1, fun r _ => ih r (hp.2 r) (hnext es o r hI hp.1)⟩

/-- **What the monitor has of a body it has of every point the body is led to.** -/
theorem wp_leads (h : wp (history pre) Q p es) (hl : Leads p ds q) :
    wp (history pre) Q q (es ++ ds) := by
  induction hl with
  | here => rwa [List.append_nil]
  | on _ r ih =>
    have hnext := ih.2 r trivial
    rwa [← List.append_assoc]

end History

/-! ## 3. The calls of a task -/

/-- The answered calls of task `i`, in their order. -/
def callsOf (i : Nat) : Trace Op Ans ε W N → List (Event Op Ans ε)
  | [] => []
  | (_, .call i' o r) :: tr => if i' = i then callsOf i tr ++ [⟨o, r⟩] else callsOf i tr
  | (_, .spawn _) :: tr => callsOf i tr
  | (_, .drift) :: tr => callsOf i tr

theorem callsOf_call (s : State Op Ans ε W N) (tr : Trace Op Ans ε W N) (i m : Nat) (o : Op)
    (r : Except ε (Ans o)) : callsOf i ((s, .call m o r) :: tr) =
      if m = i then callsOf i tr ++ [⟨o, r⟩] else callsOf i tr := rfl

/-- The calls of a stretch come after those before it. -/
theorem callsOf_append (i : Nat) (seg tr : Trace Op Ans ε W N) :
    callsOf i (seg ++ tr) = callsOf i tr ++ callsOf i seg := by
  induction seg with
  | nil => exact (List.append_nil _).symm
  | cons e seg ih =>
    obtain ⟨s, l⟩ := e
    cases l with
    | call m o r =>
      rw [List.cons_append, callsOf_call, callsOf_call, ih]
      split
      · rw [List.append_assoc]
      · rfl
    | spawn n => exact ih
    | drift => exact ih

/-- An answered call of a task is one of its calls. -/
theorem mem_callsOf {i : Nat} {tr : Trace Op Ans ε W N} {o : Op} {r : Except ε (Ans o)} :
    ⟨o, r⟩ ∈ callsOf i tr ↔ ∃ s, (s, .call i o r) ∈ tr := by
  induction tr with
  | nil => exact ⟨fun h => absurd h List.not_mem_nil, fun ⟨_, h⟩ => absurd h List.not_mem_nil⟩
  | cons e tr ih =>
    obtain ⟨s, l⟩ := e
    have hother : (∀ o r, l ≠ .call i o r) →
        ((∃ s', (s', Label.call i o r) ∈ (s, l) :: tr) ↔ ∃ s', (s', .call i o r) ∈ tr) := by
      intro hne
      refine exists_congr fun s' => ⟨fun h => ?_, List.mem_cons_of_mem _⟩
      rcases List.mem_cons.mp h with heq | h
      · exact absurd (congrArg Prod.snd heq).symm (hne o r)
      · exact h
    cases l with
    | call m o' r' =>
      rw [callsOf_call]
      split
      next heq =>
        subst heq
        rw [List.mem_append, List.mem_singleton, ih]
        constructor
        · rintro (⟨s', h⟩ | h)
          · exact ⟨s', List.mem_cons_of_mem _ h⟩
          · cases h
            exact ⟨s, List.mem_cons_self⟩
        · rintro ⟨s', h⟩
          rcases List.mem_cons.mp h with h | h
          · cases h
            exact Or.inr rfl
          · exact Or.inl ⟨s', h⟩
      next hne => rw [ih, hother fun o r h => by cases h; exact hne rfl]
    | spawn n => exact ih.trans (hother fun _ _ h => by cases h).symm
    | drift => exact ih.trans (hother fun _ _ h => by cases h).symm

variable {S : Sys Op Ans ε W N} {w₀ : W} {tr : Trace Op Ans ε W N} {s : State Op Ans ε W N}

/-- A task that has not started has made no call. -/
theorem Sys.Run.callsOf_nil (h : S.Run w₀ tr s) {i : Nat} (hi : s.tasks.length ≤ i) :
    callsOf i tr = [] := by
  cases hes : callsOf i tr with
  | nil => rfl
  | cons ev es =>
    obtain ⟨s', hcall⟩ := mem_callsOf.mp (hes ▸ List.mem_cons_self : ⟨ev.op, ev.reply⟩ ∈ callsOf i tr)
    have hlt := h.index_lt (P := fun l => ∃ o r, l = .call i o r) (fun _ hl => hl)
      ⟨_, hcall, _, _, rfl⟩
    exact absurd hlt (Nat.not_lt.mpr hi)

/-- **The calls of a task lead its body to what is left of it.** -/
theorem Sys.Run.leads (h : S.Run w₀ tr s) {i : Nat} {t : Task Op Ans ε N}
    (ht : s.tasks[i]? = some t) : Leads (S.boot t.name) (callsOf i tr) t.rest := by
  induction h generalizing t with
  | start => cases ht
  | @step tr s s' l h hs ih =>
    cases hs with
    | @call m n o k r w' hm _ =>
      rw [callsOf_call]
      rcases getElem?_set_cases ht with ⟨rfl, rfl⟩ | ⟨hne, ht⟩
      · rw [if_pos rfl]
        exact (ih hm).on r
      · rw [if_neg (Ne.symm hne)]
        exact ih ht
    | @spawn n _ =>
      rcases getElem?_append_cases ht with ⟨rfl, rfl⟩ | ht
      · rw [show callsOf _ ((s, .spawn n) :: tr) = callsOf _ tr from rfl,
          h.callsOf_nil (Nat.le_refl _)]
        exact .here
      · exact ih ht
    | drift => exact ih ht

end Async
