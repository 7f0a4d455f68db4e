/-
  File:      InvoiceOcr/Async/Accounts.lean
  Subject:   ACCOUNTS. Calls that cost, answers that pay, and what the tasks of a kind may therefore do
             in a run. Nothing here names a program.

  * `Prices`, `Prices.purse` -- what a call costs and what its answer pays; the monitor of the credit;
  * `Affords P c p` -- on every answer the body can pay for its calls out of `c` and what it is paid;
  * `wp_more`, `wp_keep` -- more credit does no harm, and what is put aside is there afterwards;
    `affords_call`, `affords_tryElse`, `affords_tryElse_free` -- the rules;
  * `charged`, `paid`, `due` -- the costs and the pay of the tasks of a kind, and their calls under way;
  * **`Run.account_rule`** -- tasks that start with nothing are charged no more than they are paid.
-/
import InvoiceOcr.Async.System
import InvoiceOcr.Async.Tally

namespace Async

variable {Op : Type} {Ans : Op → Type} {ε α β W N : Type}

/-- What a call costs, and what its answer pays. -/
structure Prices (Op : Type) (Ans : Op → Type) (ε : Type) where
  cost : Op → Nat
  pay : (o : Op) → Except ε (Ans o) → Nat

/-- The credit of a body: a call is paid for before it is made. -/
def Prices.purse (P : Prices Op Ans ε) : Monitor Op Ans ε Nat where
  pre c o := P.cost o ≤ c
  rely _ _ _ := True
  next c o r := c - P.cost o + P.pay o r

/-- **The body can pay for its calls** out of `c` and what it is paid. -/
def Affords (P : Prices Op Ans ε) (c : Nat) (p : Proc Op Ans ε α) : Prop :=
  wp P.purse (fun _ _ => True) p c

/-! ## 1. Rules -/

section Rules

variable {P : Prices Op Ans ε} {Q : Except ε α → Nat → Prop} {a b c d : Nat}

/-- More credit does no harm. -/
theorem wp_more (hQ : ∀ x a b, a ≤ b → Q x a → Q x b) {p : Proc Op Ans ε α} (hle : c ≤ d)
    (h : wp P.purse Q p c) : wp P.purse Q p d := by
  induction p generalizing c d with
  | ret x => exact hQ _ _ _ hle h
  | raise e => exact hQ _ _ _ hle h
  | call o k ih =>
    refine ⟨Nat.le_trans h.1 hle, fun r hr => ih r ?_ (h.2 r hr)⟩
    show c - P.cost o + P.pay o r ≤ d - P.cost o + P.pay o r
    omega

/-- What is put aside is there afterwards. -/
theorem wp_keep (d : Nat) {p : Proc Op Ans ε α} (h : wp P.purse Q p c) :
    wp P.purse (fun x b => ∃ a, Q x a ∧ b = a + d) p (c + d) := by
  induction p generalizing c with
  | ret x => exact ⟨c, h, rfl⟩
  | raise e => exact ⟨c, h, rfl⟩
  | call o k ih =>
    refine ⟨Nat.le_trans h.1 (Nat.le_add_right c d), fun r hr => ?_⟩
    have hcost : P.cost o ≤ c := h.1
    have hnext : P.purse.next (c + d) o r = P.purse.next c o r + d := by
      show c + d - P.cost o + P.pay o r = c - P.cost o + P.pay o r + d
      omega
    rw [hnext]
    exact ih r (h.2 r hr)

theorem Affords.more {p : Proc Op Ans ε α} (h : Affords P c p) (hle : c ≤ d) : Affords P d p :=
  wp_more (fun _ _ _ _ _ => trivial) hle h

theorem affords_await {o : Op} (h : P.cost o ≤ c) :
    Affords P c (Proc.await o : Proc Op Ans ε (Ans o)) :=
  (wp_await o c).mpr ⟨h, fun _ _ => trivial⟩

theorem affords_ofExcept (x : Except ε α) : Affords P c (Proc.ofExcept x : Proc Op Ans ε α) :=
  (wp_ofExcept x c).mpr trivial

/-- `try … except … else`, one after the other. -/
theorem affords_tryElse {p : Proc Op Ans ε α} {h : ε → Proc Op Ans ε β} {k : α → Proc Op Ans ε β}
    (hp : Affords P a p) (hk : ∀ x, Affords P b (k x)) (hh : ∀ e, Affords P b (h e)) :
    Affords P (a + b) (p.tryElse h k) := by
  refine wp_tryElse_of (wp_keep b hp) (fun x c hc => ?_) fun e c hc => ?_
  · obtain ⟨a', _, rfl⟩ := hc
    exact (hk x).more (Nat.le_add_left b a')
  · obtain ⟨a', _, rfl⟩ := hc
    exact (hh e).more (Nat.le_add_left b a')

/-- `try … except … else` whose branches are free. -/
theorem affords_tryElse_free {p : Proc Op Ans ε α} {h : ε → Proc Op Ans ε β}
    {k : α → Proc Op Ans ε β} (hp : Affords P c p) (hk : ∀ x, Affords P 0 (k x))
    (hh : ∀ e, Affords P 0 (h e)) : Affords P c (p.tryElse h k) :=
  affords_tryElse hp hk hh

theorem affords_bind {p : Proc Op Ans ε α} {f : α → Proc Op Ans ε β} (hp : Affords P a p)
    (hf : ∀ x, Affords P b (f x)) : Affords P (a + b) (p >>= f) :=
  affords_tryElse hp hf fun _ => trivial

/-- A call whose answer pays for what follows. -/
theorem affords_call {o : Op} {h : ε → Proc Op Ans ε β} {k : Ans o → Proc Op Ans ε β}
    (hcost : P.cost o ≤ c) (hk : ∀ x, Affords P (c - P.cost o + P.pay o (.ok x)) (k x))
    (hh : ∀ e, Affords P (c - P.cost o + P.pay o (.error e)) (h e)) :
    Affords P c ((Proc.await o).tryElse h k) := by
  refine wp_tryElse_of (R := fun r a => a = c - P.cost o + P.pay o r)
    ((wp_await o c).mpr ⟨hcost, fun _ _ => rfl⟩) (fun x a ha => ?_) fun e a ha => ?_
  · subst ha
    exact hk x
  · subst ha
    exact hh e

end Rules

/-! ## 2. Runs -/

section Runs

variable {S : Sys Op Ans ε W N} {P : Prices Op Ans ε} {f : N → Bool} {w₀ w' : W}
  {tr : Trace Op Ans ε W N} {s s' : State Op Ans ε W N} {l : Label Op Ans ε N}

/-- Task `i` is of the kind. -/
def ofKind (f : N → Bool) (s : State Op Ans ε W N) (i : Nat) : Bool :=
  (s.tasks[i]?.map (·.name)).any f

/-- What a step costs the tasks of the kind. -/
def charged (P : Prices Op Ans ε) (f : N → Bool) (e : State Op Ans ε W N × Label Op Ans ε N) : Nat :=
  match e.2 with
  | .call i o _ => if ofKind f e.1 i then P.cost o else 0
  | _ => 0

/-- What it pays them. -/
def paid (P : Prices Op Ans ε) (f : N → Bool) (e : State Op Ans ε W N × Label Op Ans ε N) : Nat :=
  match e.2 with
  | .call i o r => if ofKind f e.1 i then P.pay o r else 0
  | _ => 0

/-- The call that a task of the kind has under way. -/
def due (P : Prices Op Ans ε) (f : N → Bool) (t : Task Op Ans ε N) : Nat :=
  match t.rest with
  | .call o _ => if f t.name then P.cost o else 0
  | _ => 0

/-- **The accounts**: the credit of each task of the kind, none of the others. -/
structure Accounts (P : Prices Op Ans ε) (f : N → Bool) (tr : Trace Op Ans ε W N)
    (s : State Op Ans ε W N) (cs : List Nat) : Prop where
  length : s.tasks.length = cs.length
  each : ∀ (i : Nat) t c, s.tasks[i]? = some t → cs[i]? = some c →
    if f t.name then Affords P c t.rest else c = 0
  balance : tally (charged P f) tr + tally id cs = tally (paid P f) tr

theorem ofKind_task {i : Nat} {n : N} {p : Proc Op Ans ε Unit} (ht : s.tasks[i]? = some ⟨n, p⟩) :
    ofKind f s i = f n := by
  unfold ofKind
  rw [ht]
  rfl

/-- A task of the kind is answered. -/
theorem accounts_call {i : Nat} {n : N} {o : Op} {k : Except ε (Ans o) → Proc Op Ans ε Unit}
    {r : Except ε (Ans o)} {cs : List Nat} (ht : s.tasks[i]? = some ⟨n, .call o k⟩)
    (h : Accounts P f tr s cs) :
    ∃ cs', Accounts P f ((s, .call i o r) :: tr) ⟨w', s.tasks.set i ⟨n, k r⟩⟩ cs' := by
  have hlt : i < cs.length := h.length ▸ (List.getElem?_eq_some_iff.mp ht).1
  obtain ⟨c, hc⟩ : ∃ c, cs[i]? = some c := ⟨_, List.getElem?_eq_getElem hlt⟩
  have hown := h.each i _ c ht hc
  have hbalance := h.balance
  cases hn : f n with
  | false =>
    rw [if_neg (by simp [hn])] at hown
    refine ⟨cs, by rw [List.length_set]; exact h.length, fun j t c' hj hc' => ?_, ?_⟩
    · rcases getElem?_set_cases hj with ⟨rfl, rfl⟩ | ⟨_, hj⟩
      · rw [if_neg (by simp [hn])]
        exact Option.some.inj (hc'.symm.trans hc) ▸ hown
      · exact h.each j t c' hj hc'
    · have hkind : ofKind f s i = false := (ofKind_task ht).trans hn
      rw [tally_cons, tally_cons]
      simp only [charged, paid, hkind]
      simpa using hbalance
  | true =>
    rw [if_pos (by simp [hn])] at hown
    refine ⟨cs.set i (c - P.cost o + P.pay o r), by
      rw [List.length_set, List.length_set]; exact h.length, fun j t c' hj hc' => ?_, ?_⟩
    · rcases getElem?_set_cases hj with ⟨rfl, rfl⟩ | ⟨hne, hj⟩ <;>
        rcases getElem?_set_cases hc' with ⟨he, rfl⟩ | ⟨hne', hc'⟩
      · rw [if_pos hn]
        exact hown.2 r trivial
      · exact absurd rfl hne'
      · exact absurd he hne
      · exact h.each j t c' hj hc'
    · have hkind : ofKind f s i = true := (ofKind_task ht).trans hn
      have hset := tally_set (f := id) (q := c - P.cost o + P.pay o r) hc
      have hcost : P.cost o ≤ c := hown.1
      rw [tally_cons, tally_cons]
      simp only [charged, paid, hkind, if_true, id] at hset ⊢
      omega

/-- RUN: the accounts of a run. -/
theorem exists_accounts (hboot : ∀ n, f n = true → Affords P 0 (S.boot n)) (h : S.Run w₀ tr s) :
    ∃ cs, Accounts P f tr s cs := by
  induction h with
  | start => exact ⟨[], rfl, fun i t c ht => (by cases ht), rfl⟩
  | @step tr s s' l h hs ih =>
    obtain ⟨cs, hcs⟩ := ih
    cases hs with
    | call ht _ => exact accounts_call ht hcs
    | drift => exact ⟨cs, hcs.length, hcs.each, by simpa [charged, paid] using hcs.balance⟩
    | @spawn n _ =>
      refine ⟨cs ++ [0], by simp [hcs.length], fun i t c ht hc => ?_, ?_⟩
      · rcases getElem?_append_cases ht with ⟨rfl, rfl⟩ | ht
        · rcases getElem?_append_cases hc with ⟨_, rfl⟩ | hc
          · split
            · exact hboot n (by assumption)
            · rfl
          · have hlt := (List.getElem?_eq_some_iff.mp hc).1
            rw [hcs.length] at hlt
            exact absurd hlt (Nat.lt_irrefl _)
        · have hlt := (List.getElem?_eq_some_iff.mp ht).1
          rw [List.getElem?_append_left (hcs.length ▸ hlt)] at hc
          exact hcs.each i t c ht hc
      · have hbalance := hcs.balance
        rw [tally_cons, tally_cons, tally_append]
        simpa [charged, paid] using hbalance

/-- Calls under way are within the credits. -/
theorem due_le {ts : List (Task Op Ans ε N)} {cs : List Nat} (hlen : ts.length = cs.length)
    (h : ∀ (i : Nat) t c, ts[i]? = some t → cs[i]? = some c → due P f t ≤ c) :
    tally (due P f) ts ≤ tally id cs := by
  induction ts generalizing cs with
  | nil => exact Nat.zero_le _
  | cons t ts ih =>
    cases cs with
    | nil => cases hlen
    | cons c cs =>
      have hhead := h 0 t c rfl rfl
      have htail := ih (Nat.succ.inj hlen) fun i => h (i + 1)
      rw [tally_cons, tally_cons]
      exact Nat.add_le_add hhead htail

/-- **Tasks that start with nothing are charged no more than they are paid**, their calls under way
    included. -/
theorem Sys.Run.account_rule (hboot : ∀ n, f n = true → Affords P 0 (S.boot n)) (h : S.Run w₀ tr s) :
    tally (charged P f) tr + tally (due P f) s.tasks ≤ tally (paid P f) tr := by
  obtain ⟨cs, hcs⟩ := exists_accounts hboot h
  have hdue : tally (due P f) s.tasks ≤ tally id cs := by
    refine due_le hcs.length fun i t c ht hc => ?_
    have hown := hcs.each i t c ht hc
    obtain ⟨n, rest⟩ := t
    unfold due
    split
    · next o k hrest =>
      cases hrest
      split at hown
      · next hn =>
        rw [if_pos hn]
        exact hown.1
      · next hn =>
        rw [if_neg hn]
        exact Nat.zero_le c
    · exact Nat.zero_le c
  have hbalance := hcs.balance
  omega

end Runs

end Async
