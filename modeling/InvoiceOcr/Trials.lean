/-
  File:      InvoiceOcr/Trials.lean
  Subject:   ONE RECORD OF AN EVALUATION (`_eval_one`, src/scripts/run_eval.py): what is made of the
             answers of the service, and what the report says of the invoices that were read.

  * `poll` -- the loop that polls a job; `Trial.fetch` -- all up to the comparison;
    `Trial.evalOne`; `Trial.outcome` -- what `main` keeps of it;
  * `Trial.prediction` -- the invoice that is scored; `outcome_cases` -- with it and without it;
  * **`report_of_predictions`** -- where the reconstructions realign, the report is the accuracy of the
    invoices that were read, in all and for every type.
-/
import InvoiceOcr.Report

namespace InvoiceOcr

open PyJson PyText Counts

namespace Eval

/-! ## 1. The answers -/

/-- What is read of the JSON of an answer. -/
structure ReplyBody where
  invoice : EvalRecord
  jobId : Option Str := none
  errorCode : Json := .str []

/-- An answer; `resp.json()` may raise. -/
structure Reply where
  code : Nat
  json : Except Str ReplyBody

/-- A record, and what happens to it: whether its image is there, what POST answers, the polls before
    the deadline, and the seconds until the end. -/
structure Trial where
  record : EvalRecord
  downloaded : Bool
  posted : Except Str Reply
  polls : List (Except Str Reply)
  latencyS : ℚ

inductive Polled where
  | invoice (pred : EvalRecord)
  | failed (errorCode : Json)
  | timedOut

/-- The loop over the polls. -/
def poll : List (Except Str Reply) → Except Str Polled
  | [] => .ok .timedOut
  | .error _ :: polls => poll polls
  | .ok r :: polls =>
    if r.code = 200 then r.json.map fun body => .invoice body.invoice
    else if r.code = 422 ∨ r.code = 503 then r.json.map fun body => .failed body.errorCode
    else poll polls

namespace Trial

/-- What is returned of a record. -/
def result (a : Trial) (status : Str) : Outcome where
  origFile := a.record.fields.get "file"
  type := a.record.fields.get "type"
  status
  latencyS := a.latencyS

/-- `_eval_one` up to the comparison: the invoice, or what is returned at once. -/
def fetch (a : Trial) : Except Str (Outcome ⊕ EvalRecord) :=
  if !a.downloaded then .ok (.inl { a.result "download_failed".toList with latencyS := 0 })
  else
    match a.posted with
    | .error e => .ok (.inl { a.result "api_error".toList with error := some e })
    | .ok r =>
      if r.code = 200 then r.json.map fun body => .inr body.invoice
      else if r.code = 202 ∨ r.code = 504 then do
        let body ← r.json
        if body.jobId.getD [] = [] then return .inl (a.result "no_job_id".toList)
        match ← poll a.polls with
        | .invoice pred => return .inr pred
        | .failed code =>
          return .inl { a.result "pipeline_failed".toList with errorCode := some code }
        | .timedOut => return .inl (a.result "poll_timeout".toList)
      else if r.code = 429 then .ok (.inl (a.result "backpressure_429".toList))
      else .ok (.inl (a.result ("http_".toList ++ natStr r.code)))

/-- `_eval_one`. -/
def evalOne (txt : Texts) (a : Trial) : Except Str Outcome := do
  match ← a.fetch with
  | .inl early => return early
  | .inr pred =>
    return { a.result okStatus with
      latencyS := roundTo 2 a.latencyS
      mismatches := (evaluateSingle txt pred (normalizeLabelRecord a.record)).mismatches }

/-- `per_record_results[i]`. -/
def outcome (txt : Texts) (a : Trial) : Outcome :=
  match a.evalOne txt with
  | .ok o => o
  | .error e => { a.result "exception".toList with error := some e, latencyS := 0 }

end Trial

/-- The report on the trials. -/
def reportOn (txt : Texts) (info : RunInfo) (trials : List Trial) : Report :=
  aggregate txt info (trials.map (·.record)) (trials.map (·.outcome txt))

/-! ## 2. The invoices that were read -/

namespace Trial

/-- The invoice that is scored. -/
def prediction (a : Trial) : Option EvalRecord :=
  match a.fetch with
  | .ok (.inr pred) => some pred
  | _ => none

/-- Its verdicts on a field. -/
def verdicts (txt : Texts) (a : Trial) (fn : String) : List Bool :=
  match a.prediction with
  | some pred => (evaluateSingle txt pred (normalizeLabelRecord a.record)).verdicts fn
  | none => []

/-- Every line of the label gets its own reconstruction back. -/
def Realigns (txt : Texts) (a : Trial) : Prop :=
  ∀ pred, a.prediction = some pred → Eval.Realigns txt pred (normalizeLabelRecord a.record)

def isOf (ty : Str) (a : Trial) : Bool := decide (storeType a.record = ty)

variable {txt : Texts} {a : Trial}

/-- What is returned at once is not ok. -/
theorem fetch_early {o : Outcome} (h : a.fetch = .ok (.inl o)) : o.isOk = false := by
  unfold fetch at h
  split at h
  · cases h
    rfl
  · cases hposted : a.posted with
    | error e =>
      rw [hposted] at h
      cases h
      rfl
    | ok r =>
      rw [hposted] at h
      dsimp only at h
      split_ifs at h
      · cases hjson : r.json <;> rw [hjson] at h <;> cases h
      · cases hjson : r.json with
        | error e => rw [hjson] at h; cases h
        | ok body =>
          rw [hjson] at h
          change (if body.jobId.getD [] = [] then _ else _) = _ at h
          split_ifs at h
          · cases h
            rfl
          · cases hpoll : poll a.polls with
            | error e => rw [hpoll] at h; cases h
            | ok polled =>
              rw [hpoll] at h
              cases polled <;> cases h <;> rfl
      · cases h
        rfl
      · cases h
        rfl

/-- **A record is ok exactly with an invoice**, and then its mismatches are those of the invoice. -/
theorem outcome_cases (txt : Texts) (a : Trial) :
    (∃ pred, a.prediction = some pred ∧ (a.outcome txt).isOk = true ∧ (a.outcome txt).mismatches =
      (evaluateSingle txt pred (normalizeLabelRecord a.record)).mismatches) ∨
    (a.prediction = none ∧ (a.outcome txt).isOk = false) := by
  unfold outcome evalOne prediction
  cases hfetch : a.fetch with
  | error e => exact Or.inr ⟨rfl, rfl⟩
  | ok fetched =>
    cases fetched with
    | inl o => exact Or.inr ⟨rfl, fetch_early hfetch⟩
    | inr pred => exact Or.inl ⟨pred, rfl, rfl, rfl⟩

theorem isOk_outcome : (a.outcome txt).isOk = a.prediction.isSome := by
  rcases outcome_cases txt a with ⟨pred, hpred, hok, _⟩ | ⟨hnone, hok⟩
  · rw [hpred, hok, Option.isSome_some]
  · rw [hnone, hok, Option.isSome_none]

/-- STEP: the verdicts the report counts on a field of one record are those of its invoice. -/
theorem countP_outcome (hratio : ∀ s, txt.ratio s s = 1) (hlower : txt.lower [] = [])
    (h : a.Realigns txt) (fn : String) (q : Bool → Bool) :
    (verdictsOf txt (a.outcome txt, a.record)).countP (fun v => decide (v.2.1 = fn) && q v.2.2) =
      (a.verdicts txt fn).countP q := by
  rw [countP_verdictsOf]
  unfold verdicts fieldResults
  rcases outcome_cases txt a with ⟨pred, hpred, hok, hmismatches⟩ | ⟨hnone, hok⟩
  · rw [if_pos hok, hpred, hmismatches, ← verdicts_eq_get]
    exact congrArg (List.countP q) (skeleton_verdicts hratio hlower (h pred hpred) fn)
  · rw [hnone, hok]
    rfl

end Trial

/-! ## 3. The report on them -/

/-- How many verdicts there are, and how many are correct. -/
def tally (vs : List Bool) : FieldCount := ⟨vs.count true, vs.length⟩

def FieldCount.accuracy (c : FieldCount) : FieldAccuracy := ⟨c.correct, c.total, c.pct⟩

section Run

variable {txt : Texts} {trials : List Trial} {s : Trial → Bool} {p : Verdict → Bool}

/-- The records that were read, with their labels. -/
def scoredBy (txt : Texts) (trials : List Trial) : List (Outcome × EvalRecord) :=
  trials.map fun a => (a.outcome txt, a.record)

theorem type_of_mem_verdictsOf {x : Outcome × EvalRecord} {v : Verdict} (h : v ∈ verdictsOf txt x) :
    v.1 = storeType x.2 := by
  unfold verdictsOf at h
  split at h
  · obtain ⟨r, _, hv⟩ := List.mem_flatMap.mp h
    obtain ⟨isCorrect, _, rfl⟩ := List.mem_map.mp hv
    rfl
  · cases h

/-- RUN: the verdicts on a field of the records that are selected. -/
theorem countP_scored (hratio : ∀ s, txt.ratio s s = 1) (hlower : txt.lower [] = [])
    (h : ∀ a ∈ trials, a.Realigns txt) (fn : String) (hp : ∀ a ∈ trials, ∀ v ∈ verdictsOf txt (a.outcome txt, a.record),
      p v = (s a && decide (v.2.1 = fn))) (q : Bool → Bool) :
    ((scoredBy txt trials).flatMap (verdictsOf txt)).countP (fun v => p v && q v.2.2) =
      ((trials.filter s).flatMap fun a => a.verdicts txt fn).countP q := by
  induction trials with
  | nil => rfl
  | cons a trials ih =>
    have hrest := ih (fun b hb => h b (List.mem_cons_of_mem _ hb))
      fun b hb => hp b (List.mem_cons_of_mem _ hb)
    have hone := a.countP_outcome hratio hlower (h a List.mem_cons_self) fn q
    unfold scoredBy at hrest ⊢
    rw [List.map_cons, List.flatMap_cons, List.countP_append, hrest, List.filter_cons]
    cases hs : s a with
    | true =>
      rw [if_pos rfl, List.flatMap_cons, List.countP_append, ← hone]
      congr 1
      exact List.countP_congr fun v hv => by rw [hp a List.mem_cons_self v hv, hs, Bool.true_and]
    | false =>
      have hzero : (verdictsOf txt (a.outcome txt, a.record)).countP (fun v => p v && q v.2.2) = 0 :=
        List.countP_eq_zero.mpr fun v hv => by simp [hp a List.mem_cons_self v hv, hs]
      rw [hzero, Nat.zero_add]
      rfl

theorem countOf_scored (hratio : ∀ s, txt.ratio s s = 1) (hlower : txt.lower [] = [])
    (h : ∀ a ∈ trials, a.Realigns txt) (fn : String) (hp : ∀ a ∈ trials, ∀ v ∈ verdictsOf txt (a.outcome txt, a.record),
      p v = (s a && decide (v.2.1 = fn))) :
    countOf ((scoredBy txt trials).flatMap (verdictsOf txt)) p =
      tally ((trials.filter s).flatMap fun a => a.verdicts txt fn) := by
  have hcorrect := countP_scored hratio hlower h fn hp id
  have htotal := countP_scored hratio hlower h fn hp fun _ => true
  have hcount : ∀ bs : List Bool, bs.count true = bs.countP id := fun bs =>
    List.countP_congr fun b _ => by simp
  simp only [Bool.and_true, List.countP_true, id] at hcorrect htotal
  unfold countOf tally
  rw [hcorrect, htotal, hcount]

theorem mem_typesOf {x : Outcome × EvalRecord} {ty : Str} :
    ty ∈ typesOf x ↔ x.1.isOk = true ∧ storeType x.2 = ty := by
  unfold typesOf
  split_ifs with hok
  · simp [hok, eq_comm]
  · simp [hok]

/-- The types of the records that were read. -/
theorem count_types (ty : Str) : ((scoredBy txt trials).flatMap typesOf).count ty =
    (trials.filter (Trial.isOf ty)).countP fun a => a.prediction.isSome := by
  induction trials with
  | nil => rfl
  | cons a trials ih =>
    unfold scoredBy at ih ⊢
    rw [List.map_cons, List.flatMap_cons, List.count_append, ih, List.filter_cons]
    unfold typesOf Trial.isOf
    rw [Trial.isOk_outcome]
    cases hsome : a.prediction.isSome <;> by_cases hty : storeType a.record = ty <;>
      simp [hsome, hty, Nat.add_comm]

end Run

/-- **The report is the accuracy of the invoices that were read.** Where every label line gets its own
    reconstruction back, the successes are the records with an invoice, a type stands in the report
    exactly with such a record, and every accuracy, in all and of a type, is that of the invoices
    themselves, however the others failed. -/
theorem report_of_predictions (txt : Texts) (info : RunInfo) (trials : List Trial)
    (hratio : ∀ s, txt.ratio s s = 1) (hlower : txt.lower [] = [])
    (hrealigns : ∀ a ∈ trials, a.Realigns txt) :
    (reportOn txt info trials).nSuccess = trials.countP (fun a => a.prediction.isSome) ∧
    (∀ ty, ty ∈ keys (reportOn txt info trials).byType ↔
      ∃ a ∈ trials, a.prediction.isSome = true ∧ storeType a.record = ty) ∧
    (∀ fn, get noAccuracy fn (reportOn txt info trials).fieldAccuracy =
      (tally (trials.flatMap fun a => a.verdicts txt fn)).accuracy) ∧
    ∀ x ∈ (reportOn txt info trials).byType,
      x.2.n = (trials.filter (Trial.isOf x.1)).countP (fun a => a.prediction.isSome) ∧
      ∀ fn, get noAccuracy fn x.2.fieldAccuracy =
        (tally ((trials.filter (Trial.isOf x.1)).flatMap fun a => a.verdicts txt fn)).accuracy := by
  have h := tallied_aggregate txt (trials.map (·.record)) (trials.map (·.outcome txt))
  have hzip : (trials.map (·.outcome txt)).zip (trials.map (·.record)) = scoredBy txt trials :=
    List.zip_map'
  refine ⟨?_, fun ty => ?_, fun fn => ?_, fun x hx => ?_⟩
  · show (trials.map (·.outcome txt)).countP (·.isOk) = _
    rw [List.countP_map]
    exact List.countP_congr fun a _ => by rw [Function.comp, Trial.isOk_outcome]
  · have hkeys : keys (reportOn txt info trials).byType = keys (sorted ((((trials.map
        (·.outcome txt)).zip (trials.map (·.record))).foldl (Totals.record txt) {}).typeN)) :=
      List.map_map
    rw [hkeys, mem_keys_sorted, h.known, hzip, List.mem_flatMap]
    simp only [scoredBy, List.mem_map, exists_exists_and_eq_and, mem_typesOf, Trial.isOk_outcome]
  · have hall := countOf_scored (s := fun _ => true) hratio hlower hrealigns fn
      fun a _ v _ => (Bool.true_and (decide (v.2.1 = fn))).symm
    rw [List.filter_true] at hall
    show get noAccuracy fn (accuracyOf _) = _
    rw [get_accuracyOf h.fieldKeys, h.field, hzip, hall]
    rfl
  · obtain ⟨y, hy, rfl⟩ := List.mem_map.mp hx
    have hread := h.n_of_mem hy
    rw [hzip, count_types] at hread
    refine ⟨hread, fun fn => ?_⟩
    have hall := countOf_scored (s := Trial.isOf y.1) (p := fun v =>
      decide (v.1 = y.1) && decide (v.2.1 = fn)) hratio hlower hrealigns fn fun a _ v hv => by
        rw [type_of_mem_verdictsOf hv]
        rfl
    show get noAccuracy fn (accuracyOf _) = _
    rw [get_accuracyOf (h.typeFieldKeys y.1), h.typeField, hzip, hall]
    rfl

end Eval

open Eval

namespace Sample

/-- A label of two lines, and the invoice that is read of it: the total and a price are wrong. -/
def pairLabel : EvalRecord :=
  ⟨[("type".toList, "AEON".toList), ("total_money".toList, "12".toList)],
    [line ['x'] ['5'], line ['y'] ['7']]⟩

def pairInvoice : EvalRecord :=
  ⟨[("type".toList, "AEON".toList), ("total_money".toList, "10".toList)],
    [line ['y'] ['5'], line ['x'] ['5']]⟩

/-- A receipt that is read at the second poll, and one that the service refuses. -/
def trials : List Eval.Trial :=
  [{ record := pairLabel
     downloaded := true
     posted := .ok ⟨202, .ok { invoice := ⟨[], []⟩, jobId := some ['j'] }⟩
     polls := [.ok ⟨202, .ok { invoice := ⟨[], []⟩ }⟩, .ok ⟨200, .ok { invoice := pairInvoice }⟩]
     latencyS := 4 },
   { record := pairLabel
     downloaded := true
     posted := .ok ⟨429, .ok { invoice := ⟨[], []⟩ }⟩
     polls := []
     latencyS := 1 }]

theorem realigns_trials : ∀ a ∈ trials, a.Realigns texts := by
  intro a ha pred hpred
  rcases List.mem_pair.mp ha with rfl | rfl
  · obtain rfl : pairInvoice = pred := Option.some.inj hpred
    constructor
    case later =>
      intro i j hij hj
      have htwo : j < 2 := hj
      obtain ⟨rfl, rfl⟩ : i = 0 ∧ j = 1 := by omega
      decide +kernel
    case faded =>
      intro i hi _ hzero
      have htwo : i < 2 := hi
      rcases (show i = 0 ∨ i = 1 by omega) with rfl | rfl
      · exact absurd hzero (by decide +kernel)
      · exact absurd hzero (by decide +kernel)
  · cases hpred

end Sample

theorem Eval.report_of_predictions_polled :
    (reportOn Sample.texts Sample.evalRun Sample.trials).nSuccess =
        Sample.trials.countP (fun a => a.prediction.isSome) ∧
      (∀ ty, ty ∈ keys (reportOn Sample.texts Sample.evalRun Sample.trials).byType ↔
        ∃ a ∈ Sample.trials, a.prediction.isSome = true ∧ storeType a.record = ty) ∧
      (∀ fn, get noAccuracy fn (reportOn Sample.texts Sample.evalRun Sample.trials).fieldAccuracy =
        (tally (Sample.trials.flatMap fun a => a.verdicts Sample.texts fn)).accuracy) ∧
      ∀ x ∈ (reportOn Sample.texts Sample.evalRun Sample.trials).byType,
        x.2.n = (Sample.trials.filter (Trial.isOf x.1)).countP (fun a => a.prediction.isSome) ∧
        ∀ fn, get noAccuracy fn x.2.fieldAccuracy = (tally ((Sample.trials.filter
          (Trial.isOf x.1)).flatMap fun a => a.verdicts Sample.texts fn)).accuracy :=
  report_of_predictions Sample.texts Sample.evalRun Sample.trials (fun _ => if_pos rfl) rfl
    Sample.realigns_trials

end InvoiceOcr
