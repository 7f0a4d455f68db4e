/-
  File:      InvoiceOcr/Attempts.lean
  Subject:   THE SCHEDULE OF THE GEMINI ATTEMPTS (src/pipeline/extractor.py), against any script of
             outcomes.

  * `Outcome`, `scripted` -- what comes back from one attempt, and a service that follows a script;
  * `callsFrom` -- how many attempts are made; `schedule` -- the attempts and the waits between them;
  * `Schedule` -- what the docstring of extractor.py promises of a run;
  * **`extractInvoice_schedule`** -- `extract_invoice` keeps to it, for all backoffs and scripts.
-/
import Mathlib.Data.ENat.Lattice
import InvoiceOcr.Pipeline

namespace InvoiceOcr

open PyJson Async

/-! ## 1. Scripts of outcomes -/

/-- What comes back from one `generate_content`: a response, or an exception the loop knows. -/
inductive Outcome where
  | response (text : Option Str)
  | clientError (status : Option Nat) (message : Str)
  | serverError (message : Str)
  | timeout (message : Str)

def Outcome.reply : Outcome → Except PyExc (Option Str)
  | .response text => .ok text
  | .clientError status message => .error (.genaiClientError status message)
  | .serverError message => .error (.genaiServerError message)
  | .timeout message => .error (.timeoutError message)

/-- A `ServerError` or a `TimeoutError`. -/
def Outcome.isRetryable : Outcome → Bool
  | .serverError _ => true
  | .timeout _ => true
  | _ => false

/-- A service that answers attempt `i` with outcome `i` of the script. -/
def scripted (script : Nat → Outcome) (i : Nat) : (o : Op) → Except PyExc (Ans o) × Nat
  | .generateContent _ => ((script i).reply, i + 1)
  | .sleep _ => (.ok (), i)
  | _ => (.error (.exception []), i)

/-- The position of the first outcome that is no retryable one, from 1; infinite if there is none. -/
noncomputable def firstFinal (script : Nat → Outcome) : ℕ∞ :=
  ⨅ (i : Nat) (_ : (script i).isRetryable = false), ((i + 1 : Nat) : ℕ∞)

/-- One attempt, as an event. -/
def attempted (req : GenerateRequest) (script : Nat → Outcome) (i : Nat) : Event Op Ans PyExc :=
  ⟨.generateContent req, (script i).reply⟩

/-- The backoff `x.1`, then the retry `x.2`. -/
def retried (req : GenerateRequest) (script : Nat → Outcome) (x : Rat × Nat) :
    List (Event Op Ans PyExc) :=
  [⟨.sleep x.1, .ok ()⟩, attempted req script x.2]

/-- So many attempts, and the first backoffs, one before each retry. -/
def schedule (backoffs : List Rat) (req : GenerateRequest) (script : Nat → Outcome) :
    Nat → List (Event Op Ans PyExc)
  | 0 => []
  | calls + 1 =>
    attempted req script 0 :: ((backoffs.take calls).zipIdx 1).flatMap (retried req script)

/-- What the documentation says a final outcome becomes. -/
def Outcome.Documented (x : Except PyExc InvoiceResult) : Outcome → Prop
  | .response text =>
    match InvoiceResult.modelValidateJson (text.getD []) with
    | .ok result => x = .ok result
    | .error _ => ∃ message, x = .error (.permanentPipeline "extractor_invalid_json".toList message)
  | .clientError status _ =>
    if status = some 429 then
      ∃ message, x = .error (.rateLimitedLocally "gemini_rate_limited".toList message)
    else ∃ message, x = .error (.permanentPipeline "gemini_client_error".toList message)
  | _ => False

def isAttempt (ev : Event Op Ans PyExc) : Bool :=
  match ev.op with
  | .generateContent _ => true
  | _ => false

/-- **The schedule kept**, by a run with events `es` that ended with `x`. -/
structure Schedule (backoffs : List Rat) (req : GenerateRequest) (script : Nat → Outcome)
    (es : List (Event Op Ans PyExc)) (x : Except PyExc InvoiceResult) : Prop where
  calls : (es.countP isAttempt : ℕ∞) = min (firstFinal script) (backoffs.length + 1 : Nat)
  events : es = schedule backoffs req script (es.countP isAttempt)
  final : ∀ i : Nat, firstFinal script = (i + 1 : Nat) → i ≤ backoffs.length → (script i).Documented x
  exhausted : (∃ message, x = .error (.geminiExhausted message)) ↔
    ∀ i ≤ backoffs.length, (script i).isRetryable = true
  /-- The raise after the loop is not reached. -/
  reachable : ∀ last, x ≠ .error (.geminiExhausted ("unreachable; last=".toList ++ last))

/-! ## 2. One attempt -/

section Attempt

variable (backoffs : List Rat) (req : GenerateRequest)

/-- The except clauses of the loop. -/
def attemptHandler (attempt : Nat) (rest : List Nat) (e : PyExc) : Py InvoiceResult :=
  match e with
  | .genaiClientError status _ =>
    if status = some 429 then
      .raise (.rateLimitedLocally "gemini_rate_limited".toList "Gemini returned 429".toList)
    else
      .raise (.permanentPipeline "gemini_client_error".toList
        (statusText status ++ ": ".toList ++ e.str))
  | .genaiServerError _ => backOff backoffs e attempt (extractAttempts backoffs req rest e.str)
  | .timeoutError _ => backOff backoffs e attempt (extractAttempts backoffs req rest e.str)
  | _ => .raise e

/-- What follows the reply to one attempt. -/
def afterAttempt (attempt : Nat) (rest : List Nat) : Except PyExc (Option Str) → Py InvoiceResult
  | .ok text => .ofExcept (readResponse text)
  | .error e => attemptHandler backoffs req attempt rest e

theorem extractAttempts_call (attempt : Nat) (rest : List Nat) (last : Str) :
    extractAttempts backoffs req (attempt :: rest) last =
      .call (.generateContent req) (afterAttempt backoffs req attempt rest) := by
  refine congrArg (Proc.call _) (funext fun r => ?_)
  cases r with
  | error e => rfl
  | ok text => rfl

/-- What an outcome ends the run with, `attempts` having been made. -/
def Outcome.conclusion (attempts : Nat) : Outcome → Except PyExc InvoiceResult
  | .response text => readResponse text
  | .clientError status message =>
    if status = some 429 then
      .error (.rateLimitedLocally "gemini_rate_limited".toList "Gemini returned 429".toList)
    else
      .error (.permanentPipeline "gemini_client_error".toList
        (statusText status ++ ": ".toList ++ message))
  | .serverError message =>
    .error (.geminiExhausted ("after ".toList ++ natStr attempts ++ " attempts: ".toList ++ message))
  | .timeout message =>
    .error (.geminiExhausted ("after ".toList ++ natStr attempts ++ " attempts: ".toList ++ message))

end Attempt

/-! ## 3. The attempts that are made -/

/-- How many of the next `k` attempts are made, the first of them attempt `a`. -/
def callsFrom (script : Nat → Outcome) (a : Nat) : Nat → Nat
  | 0 => 0
  | k + 1 => if (script a).isRetryable then callsFrom script (a + 1) k + 1 else 1

section Run

variable {backoffs : List Rat} {req : GenerateRequest} {script : Nat → Outcome}

theorem callsFrom_pos (a k : Nat) : 0 < callsFrom script a (k + 1) := by
  unfold callsFrom
  split <;> omega

theorem callsFrom_le (a k : Nat) : callsFrom script a k ≤ k := by
  induction k generalizing a with
  | zero => exact Nat.le_refl 0
  | succ k ih =>
    unfold callsFrom
    have hrest := ih (a + 1)
    split <;> omega

/-- One retryable attempt with a backoff left: the wait, and the attempts after it. -/
theorem run_retry {attempt : Nat} {rest : List Nat} {seconds : Rat} {last : Str} {i : Nat}
    (hretry : (script i).isRetryable = true) (hleft : backoffs[attempt]? = some seconds) :
    ∃ last', (extractAttempts backoffs req (attempt :: rest) last).events (scripted script) i =
        attempted req script i :: ⟨.sleep seconds, .ok ()⟩ ::
          (extractAttempts backoffs req rest last').events (scripted script) (i + 1) ∧
      ((extractAttempts backoffs req (attempt :: rest) last).interp (scripted script) i).1 =
        ((extractAttempts backoffs req rest last').interp (scripted script) (i + 1)).1 := by
  have hback : ∀ e, (script i).reply = .error e → attemptHandler backoffs req attempt rest e =
      backOff backoffs e attempt (extractAttempts backoffs req rest e.str) →
      afterAttempt backoffs req attempt rest (script i).reply =
        (await (.sleep seconds)).bind fun _ => extractAttempts backoffs req rest e.str := by
    intro e hreply hhandler
    rw [hreply]
    show attemptHandler backoffs req attempt rest e = _
    rw [hhandler]
    unfold backOff
    rw [hleft]
    rfl
  have hafter : ∃ last', afterAttempt backoffs req attempt rest (script i).reply =
      (await (.sleep seconds)).bind fun _ => extractAttempts backoffs req rest last' := by
    cases hout : script i with
    | response text => simp [hout, Outcome.isRetryable] at hretry
    | clientError status message => simp [hout, Outcome.isRetryable] at hretry
    | serverError message => exact ⟨_, hout ▸ hback _ (by rw [hout]; rfl) rfl⟩
    | timeout message => exact ⟨_, hout ▸ hback _ (by rw [hout]; rfl) rfl⟩
  obtain ⟨last', hafter⟩ := hafter
  refine ⟨last', ?_, ?_⟩
  · rw [extractAttempts_call]
    show attempted req script i ::
      (afterAttempt backoffs req attempt rest (script i).reply).events (scripted script) (i + 1) = _
    rw [hafter]
    rfl
  · rw [extractAttempts_call]
    show ((afterAttempt backoffs req attempt rest (script i).reply).interp (scripted script) (i + 1)).1 = _
    rw [hafter]
    rfl

/-- The last attempt of a run: it is final, or there is no backoff left. -/
theorem run_last {attempt : Nat} {rest : List Nat} {last : Str} {i : Nat}
    (hlast : (script i).isRetryable = true → backoffs[attempt]? = none) :
    (extractAttempts backoffs req (attempt :: rest) last).events (scripted script) i =
        [attempted req script i] ∧
      ((extractAttempts backoffs req (attempt :: rest) last).interp (scripted script) i).1 =
        (script i).conclusion (attempt + 1) := by
  have hafter : afterAttempt backoffs req attempt rest (script i).reply =
      .ofExcept ((script i).conclusion (attempt + 1)) := by
    cases hout : script i with
    | response text => rfl
    | clientError status message =>
      simp only [Outcome.reply, afterAttempt, attemptHandler, Outcome.conclusion]
      split <;> rfl
    | serverError message =>
      have hnone := hlast (by rw [hout]; rfl)
      simp only [Outcome.reply, afterAttempt, attemptHandler, backOff, hnone]
      rfl
    | timeout message =>
      have hnone := hlast (by rw [hout]; rfl)
      simp only [Outcome.reply, afterAttempt, attemptHandler, backOff, hnone]
      rfl
  rw [extractAttempts_call]
  constructor
  · show attempted req script i ::
      (afterAttempt backoffs req attempt rest (script i).reply).events (scripted script) (i + 1) = _
    rw [hafter]
    cases (script i).conclusion (attempt + 1) <;> rfl
  · show ((afterAttempt backoffs req attempt rest (script i).reply).interp (scripted script) (i + 1)).1 = _
    rw [hafter, interp_ofExcept]

/-- **The run from attempt `a` on**, by induction on the backoffs that are left. -/
theorem run_from {before after : List Rat} (hsplit : backoffs = before ++ after) (last : Str) :
    let calls := callsFrom script before.length (after.length + 1)
    let p := extractAttempts backoffs req (List.range' before.length (after.length + 1)) last
    p.events (scripted script) before.length =
        attempted req script before.length ::
          ((after.take (calls - 1)).zipIdx (before.length + 1)).flatMap (retried req script) ∧
      (p.interp (scripted script) before.length).1 =
        (script (before.length + calls - 1)).conclusion (before.length + calls) := by
  induction after generalizing before last with
  | nil =>
    have hnone : backoffs[before.length]? = none :=
      List.getElem?_eq_none (by rw [hsplit, List.append_nil])
    obtain ⟨hevents, hend⟩ := @run_last backoffs req script _ [] last _ fun _ => hnone
    have hcalls : callsFrom script before.length 1 = 1 := by
      unfold callsFrom callsFrom
      split <;> rfl
    simp only [List.length_nil, Nat.zero_add, hcalls]
    exact ⟨hevents, hend⟩
  | cons seconds after ih =>
    have hnext : (before ++ [seconds]).length = before.length + 1 := by simp
    by_cases hretry : (script before.length).isRetryable = true
    · have hleft : backoffs[before.length]? = some seconds := by
        rw [hsplit, List.getElem?_append_right (Nat.le_refl _), Nat.sub_self]
        rfl
      obtain ⟨last', hevents, hend⟩ := @run_retry backoffs req script _
        (List.range' (before.length + 1) (after.length + 1)) _ last _ hretry hleft
      obtain ⟨hrest, hrestEnd⟩ := @ih (before ++ [seconds]) (by rw [hsplit]; simp) last'
      rw [hnext] at hrest hrestEnd
      have hpos := @callsFrom_pos script (before.length + 1) after.length
      have hcalls : callsFrom script before.length (after.length + 1 + 1) =
          callsFrom script (before.length + 1) (after.length + 1) + 1 := if_pos hretry
      obtain ⟨m, hm⟩ := Nat.exists_eq_add_of_lt hpos
      simp only [List.length_cons, List.range'_succ, hcalls]
      rw [Nat.zero_add] at hm
      rw [hm] at hrest hrestEnd ⊢
      refine ⟨hevents.trans ?_, hend.trans (hrestEnd.trans ?_)⟩
      · rw [hrest]
        rfl
      · have hmade : before.length + 1 + (m + 1) = before.length + (m + 1 + 1) := by omega
        rw [hmade]
    · have hcalls : callsFrom script before.length (after.length + 1 + 1) = 1 := if_neg hretry
      obtain ⟨hevents, hend⟩ := @run_last backoffs req script before.length
        (List.range' (before.length + 1) (after.length + 1)) last _ fun h => absurd h hretry
      simp only [List.length_cons, hcalls]
      exact ⟨hevents, hend⟩

/-! ## 4. The first final outcome -/

/-- Within the first `k` outcomes there is a first final one, or all of them are retryable. -/
theorem final_within (script : Nat → Outcome) (k : Nat) :
    (∃ i < k, (script i).isRetryable = false ∧ ∀ j < i, (script j).isRetryable = true) ∨
      ∀ i < k, (script i).isRetryable = true := by
  by_cases hsome : ∃ i, i < k ∧ (script i).isRetryable = false
  · obtain ⟨hlt, hfinal⟩ := Nat.find_spec hsome
    refine Or.inl ⟨Nat.find hsome, hlt, hfinal, fun j hj => eq_true_of_ne_false fun hj' => ?_⟩
    exact Nat.find_min hsome hj ⟨lt_trans hj hlt, hj'⟩
  · exact Or.inr fun i hi => eq_true_of_ne_false fun h => hsome ⟨i, hi, h⟩

/-- Retryable outcomes are passed over. -/
theorem le_firstFinal {k : Nat} (h : ∀ i < k, (script i).isRetryable = true) :
    ((k + 1 : Nat) : ℕ∞) ≤ firstFinal script := by
  refine le_iInf₂ fun i hi => ?_
  have hle : k ≤ i := by
    by_contra hlt
    rw [h i (not_le.mp hlt)] at hi
    cases hi
  exact_mod_cast Nat.succ_le_succ hle

theorem firstFinal_eq {i : Nat} (hfinal : (script i).isRetryable = false)
    (hbefore : ∀ j < i, (script j).isRetryable = true) : firstFinal script = (i + 1 : Nat) :=
  le_antisymm (iInf₂_le i hfinal) (le_firstFinal hbefore)

theorem final_of_firstFinal {i : Nat} (h : firstFinal script = (i + 1 : Nat)) :
    (script i).isRetryable = false ∧ ∀ j < i, (script j).isRetryable = true := by
  rcases final_within script (i + 1) with ⟨j, _, hfinal, hbefore⟩ | hall
  · have heq : ((j + 1 : Nat) : ℕ∞) = (i + 1 : Nat) := (firstFinal_eq hfinal hbefore).symm.trans h
    have hij : j = i := by
      have heq' : j + 1 = i + 1 := by exact_mod_cast heq
      omega
    exact hij ▸ ⟨hfinal, hbefore⟩
  · have hle := le_firstFinal hall
    rw [h] at hle
    have hle' : i + 1 + 1 ≤ i + 1 := by exact_mod_cast hle
    omega

/-- The attempts up to a final one within the budget. -/
theorem callsFrom_final {i : Nat} (hfinal : (script i).isRetryable = false) {a k : Nat}
    (hbefore : ∀ j, a ≤ j → j < i → (script j).isRetryable = true) (hle : a ≤ i) (hlt : i < a + k) :
    a + callsFrom script a k = i + 1 := by
  induction k generalizing a with
  | zero => omega
  | succ k ih =>
    unfold callsFrom
    rcases Nat.eq_or_lt_of_le hle with rfl | hlt'
    · rw [if_neg (by rw [hfinal]; simp)]
    · rw [if_pos (hbefore a (Nat.le_refl a) hlt')]
      have hrest := ih (a := a + 1) (fun j hj => hbefore j (by omega)) hlt' (by omega)
      omega

theorem callsFrom_all {a k : Nat} (h : ∀ j, a ≤ j → j < a + k → (script j).isRetryable = true) :
    callsFrom script a k = k := by
  induction k generalizing a with
  | zero => rfl
  | succ k ih =>
    unfold callsFrom
    rw [if_pos (h a (Nat.le_refl a) (by omega)), ih fun j hj hlt => h j (by omega) (by omega)]

/-- A final outcome ends the run as documented, and not as exhausted. -/
theorem documented_conclusion {out : Outcome} (h : out.isRetryable = false) (attempts : Nat) :
    out.Documented (out.conclusion attempts) ∧
      ∀ message, out.conclusion attempts ≠ .error (.geminiExhausted message) := by
  cases out with
  | response text =>
    simp only [Outcome.Documented, Outcome.conclusion, readResponse]
    cases InvoiceResult.modelValidateJson (text.getD []) with
    | ok result => exact ⟨rfl, fun _ h => by cases h⟩
    | error e => exact ⟨⟨_, rfl⟩, fun _ h => by cases h⟩
  | clientError status message =>
    simp only [Outcome.Documented, Outcome.conclusion]
    split
    · exact ⟨⟨_, rfl⟩, fun _ h => by cases h⟩
    · exact ⟨⟨_, rfl⟩, fun _ h => by cases h⟩
  | serverError message => cases h
  | timeout message => cases h

/-- A retryable outcome ends the run as exhausted, with a text of its own. -/
theorem exhausted_conclusion {out : Outcome} (h : out.isRetryable = true) (attempts : Nat) :
    ∃ message, out.conclusion attempts =
      .error (.geminiExhausted ("after ".toList ++ natStr attempts ++ " attempts: ".toList ++ message)) := by
  cases out with
  | response text => cases h
  | clientError status message => cases h
  | serverError message => exact ⟨message, rfl⟩
  | timeout message => exact ⟨message, rfl⟩

end Run

/-! ## 5. The schedule -/

variable (cfg : Settings) (lib : Externals)

/-- What `extract_invoice` makes before its loop. -/
def extractRequest (crop : Image) : Except PyExc GenerateRequest := do
  let systemInstruction ← loadSystemPrompt cfg lib
  getClient cfg
  let jpegBytes ← lib.encodeJpeg crop
  return ⟨systemInstruction, jpegBytes⟩

theorem extractInvoice_eq (crop : Image) : extractInvoice cfg lib crop =
    (Proc.ofExcept (extractRequest cfg lib crop)).bind fun req =>
      extractAttempts cfg.geminiBackoffsSeconds req
        (List.range (cfg.geminiBackoffsSeconds.length + 1)) "None".toList := by
  unfold extractInvoice extractRequest
  cases loadSystemPrompt cfg lib with
  | error e => rfl
  | ok prompt =>
    cases getClient cfg with
    | error e => rfl
    | ok _ =>
      cases lib.encodeJpeg crop with
      | error e => rfl
      | ok jpeg => rfl

theorem countP_schedule (backoffs : List Rat) (req : GenerateRequest) (script : Nat → Outcome)
    (calls : Nat) (h : calls ≤ backoffs.length + 1) :
    (schedule backoffs req script calls).countP isAttempt = calls := by
  have hretries : ∀ (xs : List (Rat × Nat)),
      (xs.flatMap (retried req script)).countP isAttempt = xs.length := by
    intro xs
    induction xs with
    | nil => rfl
    | cons x xs ih =>
      rw [List.flatMap_cons, List.countP_append, ih, List.length_cons, Nat.add_comm]
      rfl
  cases calls with
  | zero => rfl
  | succ calls =>
    unfold schedule
    rw [List.countP_cons_of_pos rfl, hretries, List.length_zipIdx, List.length_take]
    omega

/-- The number of attempts, with what the last of them is. -/
theorem callsFrom_cases (script : Nat → Outcome) (n : Nat) :
    (∃ i ≤ n, callsFrom script 0 (n + 1) = i + 1 ∧ (script i).isRetryable = false ∧
      firstFinal script = (i + 1 : Nat)) ∨
    (callsFrom script 0 (n + 1) = n + 1 ∧ (∀ i ≤ n, (script i).isRetryable = true) ∧
      ((n + 1 : Nat) : ℕ∞) ≤ firstFinal script) := by
  rcases final_within script (n + 1) with ⟨i, hlt, hfinal, hbefore⟩ | hall
  · have hcalls := callsFrom_final hfinal (a := 0) (k := n + 1) (fun j _ hj => hbefore j hj)
      (Nat.zero_le i) (by omega)
    exact Or.inl ⟨i, by omega, by omega, hfinal, firstFinal_eq hfinal hbefore⟩
  · have hlate : ((n + 1 : Nat) : ℕ∞) ≤ firstFinal script :=
      le_trans (by exact_mod_cast Nat.le_succ (n + 1)) (le_firstFinal hall)
    exact Or.inr ⟨callsFrom_all fun j _ hj => hall j (by omega), fun i hi => hall i (by omega), hlate⟩

section Kept

variable {backoffs : List Rat} {req : GenerateRequest} {script : Nat → Outcome}
  {es : List (Event Op Ans PyExc)} {x : Except PyExc InvoiceResult}

/-- A run that a final outcome ends keeps the schedule. -/
theorem schedule_of_final {i : Nat} (hi : i ≤ backoffs.length)
    (hfinal : (script i).isRetryable = false) (hfirst : firstFinal script = (i + 1 : Nat))
    (hcount : es.countP isAttempt = i + 1)
    (hevents : es = schedule backoffs req script (es.countP isAttempt))
    (hend : x = (script i).conclusion (i + 1)) : Schedule backoffs req script es x := by
  obtain ⟨hdocumented, hother⟩ := documented_conclusion hfinal (i + 1)
  rw [← hend] at hdocumented hother
  refine ⟨?_, hevents, fun i' hi' _ => ?_, ⟨fun hexhausted => ?_, fun hall => ?_⟩, ?_⟩
  · have hle : i + 1 ≤ backoffs.length + 1 := Nat.succ_le_succ hi
    rw [hcount, hfirst, min_eq_left (by exact_mod_cast hle)]
  · have heq : i' + 1 = i + 1 := by exact_mod_cast hi'.symm.trans hfirst
    have hii : i' = i := by omega
    exact hii ▸ hdocumented
  · obtain ⟨message, hm⟩ := hexhausted
    exact absurd hm (hother message)
  · rw [hall i hi] at hfinal
    cases hfinal
  · exact fun last' => hother _

/-- A run in which every attempt was retryable keeps the schedule. -/
theorem schedule_of_exhausted (hall : ∀ i ≤ backoffs.length, (script i).isRetryable = true)
    (hlate : ((backoffs.length + 1 : Nat) : ℕ∞) ≤ firstFinal script)
    (hcount : es.countP isAttempt = backoffs.length + 1)
    (hevents : es = schedule backoffs req script (es.countP isAttempt))
    (hend : x = (script backoffs.length).conclusion (backoffs.length + 1)) :
    Schedule backoffs req script es x := by
  obtain ⟨message, hmessage⟩ := exhausted_conclusion (hall backoffs.length (Nat.le_refl _))
    (backoffs.length + 1)
  rw [hmessage] at hend
  refine ⟨?_, hevents, fun i hi hin => ?_, ⟨fun _ => hall, fun _ => ⟨_, hend⟩⟩, ?_⟩
  · rw [hcount, min_eq_right hlate]
  · have hfinal := (final_of_firstFinal hi).1
    rw [hall i hin] at hfinal
    cases hfinal
  · intro last' hlast
    rw [hend] at hlast
    simp at hlast

end Kept

/-- **The loop keeps the schedule.** -/
theorem schedule_kept (backoffs : List Rat) (req : GenerateRequest) (script : Nat → Outcome)
    (last : Str) :
    let p := extractAttempts backoffs req (List.range (backoffs.length + 1)) last
    Schedule backoffs req script (p.events (scripted script) 0) (p.interp (scripted script) 0).1 := by
  intro p
  obtain ⟨hrun, hend⟩ := @run_from backoffs req script [] backoffs rfl last
  have hpos := @callsFrom_pos script 0 backoffs.length
  have hle := @callsFrom_le script 0 (backoffs.length + 1)
  have hcases := callsFrom_cases script backoffs.length
  rw [List.length_nil, ← List.range_eq_range', Nat.zero_add] at hrun hend
  generalize callsFrom script 0 (backoffs.length + 1) = calls at hrun hend hpos hle hcases
  have hevents : p.events (scripted script) 0 = schedule backoffs req script calls := by
    obtain ⟨m, rfl⟩ := Nat.exists_eq_succ_of_ne_zero (Nat.ne_of_gt hpos)
    exact hrun
  have hcount : (p.events (scripted script) 0).countP isAttempt = calls := by
    rw [hevents, countP_schedule backoffs req script calls hle]
  have hschedule : p.events (scripted script) 0 =
      schedule backoffs req script ((p.events (scripted script) 0).countP isAttempt) := by
    rw [hcount]
    exact hevents
  rcases hcases with ⟨i, hi, rfl, hfinal, hfirst⟩ | ⟨rfl, hall, hlate⟩
  · exact schedule_of_final hi hfinal hfirst hcount hschedule hend
  · exact schedule_of_exhausted hall hlate hcount hschedule hend

/-- **The Gemini loop meets its schedule**, for all backoffs and every script of outcomes. What goes
    wrong before the loop ends the run without a call. -/
theorem extractInvoice_schedule (crop : Image) (script : Nat → Outcome) :
    let es := (extractInvoice cfg lib crop).events (scripted script) 0
    let x := ((extractInvoice cfg lib crop).interp (scripted script) 0).1
    match extractRequest cfg lib crop with
    | .ok req => Schedule cfg.geminiBackoffsSeconds req script es x
    | .error e => es = [] ∧ x = .error e := by
  rw [extractInvoice_eq]
  cases extractRequest cfg lib crop with
  | error e => exact ⟨rfl, rfl⟩
  | ok req => exact schedule_kept cfg.geminiBackoffsSeconds req script "None".toList

end InvoiceOcr
