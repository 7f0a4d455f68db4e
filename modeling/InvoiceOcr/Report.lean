/-
  File:      InvoiceOcr/Report.lean
  Subject:   THE REPORT OF AN EVALUATION (the second half of `main`, src/scripts/run_eval.py): what is
             counted of the records that were evaluated, and what the counts add up to. What is printed
             is left out, and so is the file.

  * `Outcome` -- what is known of a record; `Totals.record` -- the loop over the records;
    `aggregate` -- the report;
  * `Tallied` -- the totals against the verdicts so far; `tallied_record` -- STEP;
    `tallied_records` -- RUN;
  * **`report_balanced`** -- for all records and outcomes the report adds up.
-/
import Mathlib.Data.Char
import Mathlib.Data.List.Lex
import Mathlib.Data.String.Basic
import InvoiceOcr.Lists.Counts
import InvoiceOcr.Scoring

namespace InvoiceOcr

open PyJson PyText Counts

namespace Eval

/-! ## 1. Counting -/

/-- What `_eval_one` returns of a record, or `main` puts in its place. -/
structure Outcome where
  origFile : Str
  type : Str
  status : Str
  error : Option Str := none
  errorCode : Option Json := none
  latencyS : ℚ
  mismatches : List Mismatch := []

def okStatus : Str := "ok".toList

def Outcome.isOk (o : Outcome) : Bool := o.status == okStatus

/-- `{"correct": 0, "total": 0}`. -/
structure FieldCount where
  correct : Nat := 0
  total : Nat := 0
  deriving DecidableEq

def FieldCount.add (c : FieldCount) (isCorrect : Bool) : FieldCount where
  correct := if isCorrect then c.correct + 1 else c.correct
  total := c.total + 1

/-- `field_counts`, `type_field_counts` and `type_n`. -/
structure Totals where
  fieldCounts : List (String × FieldCount) := []
  typeFieldCounts : List (Str × List (String × FieldCount)) := []
  typeN : List (Str × Nat) := []

/-- One verdict on a field of a record of the type. -/
def Totals.verdict (t : Totals) (storeType : Str) (fieldName : String) (isCorrect : Bool) : Totals :=
  { t with
    fieldCounts := upsert {} fieldName (·.add isCorrect) t.fieldCounts
    typeFieldCounts :=
      upsert [] storeType (upsert {} fieldName (·.add isCorrect)) t.typeFieldCounts }

/-- `record.get("type", "unknown")`. -/
def storeType (record : EvalRecord) : Str := record.fields.get "type" "unknown".toList

section Aggregate

variable (txt : Texts)

/-- `field_results` of a record. -/
def fieldResults (x : Outcome × EvalRecord) : List (String × List Bool) :=
  let gt := normalizeLabelRecord x.2
  (evaluateSingle txt (buildPredSkeleton x.1.mismatches gt) gt).results

/-- One record of the loop. -/
def Totals.record (t : Totals) (x : Outcome × EvalRecord) : Totals :=
  if x.1.isOk then
    (fieldResults txt x).foldl
      (fun t r => r.2.foldl (fun t isCorrect => t.verdict (storeType x.2) r.1 isCorrect) t)
      { t with typeN := upsert 0 (storeType x.2) (· + 1) t.typeN }
  else t

/-! ## 2. The report -/

/-- `_pct`. -/
def FieldCount.pct (c : FieldCount) : ℚ :=
  if c.total = 0 then 0 else roundTo 1 ((c.correct : ℚ) / c.total * 100)

structure FieldAccuracy where
  correct : Nat
  total : Nat
  pct : ℚ

def accuracyOf (d : List (String × FieldCount)) : List (String × FieldAccuracy) :=
  (sorted d).map fun x => (x.1, ⟨x.2.correct, x.2.total, x.2.pct⟩)

structure TypeReport where
  n : Nat
  fieldAccuracy : List (String × FieldAccuracy)

/-- What the report says of the run itself. -/
structure RunInfo where
  psv : Str
  split : Str
  input : Str
  api : Str
  gitSha : Str
  timestamp : Str

structure Report where
  info : RunInfo
  nTotal : Nat
  nSuccess : Nat
  nFailed : Nat
  avgLatencyS : ℚ
  overallAvgPct : ℚ
  fieldAccuracy : List (String × FieldAccuracy)
  byType : List (Str × TypeReport)
  perRecord : List Outcome

/-- `sum(xs) / len(xs) if xs else 0.0`. -/
def mean (xs : List ℚ) : ℚ := if xs = [] then 0 else xs.foldl (· + ·) 0 / xs.length

/-- The report on `records` with `per_record_results`. -/
def aggregate (info : RunInfo) (records : List EvalRecord) (results : List Outcome) : Report :=
  let nSuccess := results.countP (·.isOk)
  let latencies := (results.filter (·.isOk)).map (·.latencyS)
  let t := (results.zip records).foldl (Totals.record txt) {}
  let fieldAccuracy := accuracyOf t.fieldCounts
  { info
    nTotal := records.length
    nSuccess
    nFailed := results.length - nSuccess
    avgLatencyS := roundTo 2 (mean latencies)
    overallAvgPct := roundTo 1 (mean (fieldAccuracy.map fun x => x.2.pct))
    fieldAccuracy
    byType := (sorted t.typeN).map fun x => (x.1, ⟨x.2, accuracyOf (get [] x.1 t.typeFieldCounts)⟩)
    perRecord := results }

end Aggregate

/-! ## 3. What the totals count -/

/-- A verdict: the type of its record, the field, and whether it is correct. -/
abbrev Verdict := Str × String × Bool

/-- The verdicts on a record. -/
def verdictsOf (txt : Texts) (x : Outcome × EvalRecord) : List Verdict :=
  if x.1.isOk then
    (fieldResults txt x).flatMap fun r => r.2.map fun isCorrect => (storeType x.2, r.1, isCorrect)
  else []

/-- The type of a record that was evaluated. -/
def typesOf (x : Outcome × EvalRecord) : List Str := if x.1.isOk then [storeType x.2] else []

/-- How many verdicts of a kind there are, and how many of them are correct. -/
def countOf (vs : List Verdict) (p : Verdict → Bool) : FieldCount :=
  ⟨vs.countP fun v => p v && v.2.2, vs.countP p⟩

theorem countOf_concat (vs : List Verdict) (v : Verdict) (p : Verdict → Bool) :
    countOf (vs ++ [v]) p = if p v then (countOf vs p).add v.2.2 else countOf vs p := by
  unfold countOf FieldCount.add
  rw [List.countP_append, List.countP_append]
  cases hp : p v <;> cases hv : v.2.2 <;> simp [hp, hv]

/-- **The totals are those of the verdicts.** -/
structure Tallied (t : Totals) (vs : List Verdict) (types : List Str) : Prop where
  field : ∀ fn, get {} fn t.fieldCounts = countOf vs fun v => decide (v.2.1 = fn)
  typeField : ∀ ty fn, get {} fn (get [] ty t.typeFieldCounts) =
    countOf vs fun v => decide (v.1 = ty) && decide (v.2.1 = fn)
  n : ∀ ty, get 0 ty t.typeN = types.count ty
  fieldKeys : (keys t.fieldCounts).Nodup
  typeFieldKeys : ∀ ty, (keys (get [] ty t.typeFieldCounts)).Nodup
  typeKeys : (keys t.typeN).Nodup
  seen : ∀ fn, fn ∈ keys t.fieldCounts → ∃ v ∈ vs, v.2.1 = fn
  typeSeen : ∀ ty fn, fn ∈ keys (get [] ty t.typeFieldCounts) → ∃ v ∈ vs, v.1 = ty ∧ v.2.1 = fn
  known : ∀ ty, ty ∈ keys t.typeN ↔ ty ∈ types
  own : ∀ v ∈ vs, v.1 ∈ types

variable {txt : Texts} {t : Totals} {vs : List Verdict} {types : List Str} {ty : Str} {fn : String}

theorem tallied_empty : Tallied {} [] [] where
  field _ := rfl
  typeField _ _ := rfl
  n _ := rfl
  fieldKeys := List.nodup_nil
  typeFieldKeys _ := List.nodup_nil
  typeKeys := List.nodup_nil
  seen _ h := by cases h
  typeSeen _ _ h := by cases h
  known _ := Iff.rfl
  own _ h := by cases h

/-- STEP: a record of the type. -/
theorem Tallied.newType (h : Tallied t vs types) (ty : Str) :
    Tallied { t with typeN := upsert 0 ty (· + 1) t.typeN } vs (types ++ [ty]) where
  field := h.field
  typeField := h.typeField
  n ty' := by
    show get 0 ty' (upsert 0 ty (· + 1) t.typeN) = _
    rw [get_upsert, h.n, h.n, List.count_append, List.count_singleton]
    by_cases heq : ty' = ty
    · simp [heq]
    · simp [heq, Ne.symm heq]
  fieldKeys := h.fieldKeys
  typeFieldKeys := h.typeFieldKeys
  typeKeys := nodup_upsert h.typeKeys
  seen := h.seen
  typeSeen := h.typeSeen
  known ty' := by
    show ty' ∈ keys (upsert 0 ty (· + 1) t.typeN) ↔ _
    rw [mem_keys_upsert, h.known, List.mem_append, List.mem_singleton, or_comm]
  own v hv := List.mem_append_left _ (h.own v hv)

/-- STEP: a verdict on a record of a type that is known. -/
theorem Tallied.verdict (h : Tallied t vs types) (hty : ty ∈ types) (fn : String) (isCorrect : Bool) :
    Tallied (t.verdict ty fn isCorrect) (vs ++ [(ty, fn, isCorrect)]) types where
  field fn' := by
    show get {} fn' (upsert {} fn (·.add isCorrect) t.fieldCounts) = _
    rw [get_upsert, h.field, h.field, countOf_concat]
    by_cases heq : fn' = fn
    · subst heq
      simp
    · simp [heq, Ne.symm heq]
  typeField ty' fn' := by
    show get {} fn' (get [] ty' (upsert [] ty (upsert {} fn (·.add isCorrect)) t.typeFieldCounts)) = _
    rw [get_upsert, countOf_concat]
    by_cases heq : ty' = ty
    · subst heq
      rw [if_pos rfl, get_upsert, h.typeField, h.typeField]
      by_cases heq' : fn' = fn
      · subst heq'
        simp
      · simp [heq', Ne.symm heq']
    · rw [if_neg heq, h.typeField]
      simp [Ne.symm heq]
  n := h.n
  fieldKeys := nodup_upsert h.fieldKeys
  typeFieldKeys ty' := by
    show (keys (get [] ty' (upsert [] ty (upsert {} fn (·.add isCorrect)) t.typeFieldCounts))).Nodup
    rw [get_upsert]
    split
    · exact nodup_upsert (h.typeFieldKeys ty)
    · exact h.typeFieldKeys ty'
  typeKeys := h.typeKeys
  seen fn' hmem := by
    rcases mem_keys_upsert.mp hmem with rfl | hmem
    · exact ⟨_, List.mem_append_right _ List.mem_cons_self, rfl⟩
    · obtain ⟨v, hv, hfn⟩ := h.seen fn' hmem
      exact ⟨v, List.mem_append_left _ hv, hfn⟩
  typeSeen ty' fn' hmem := by
    have hold : fn' ∈ keys (get [] ty' t.typeFieldCounts) →
        ∃ v ∈ vs ++ [(ty, fn, isCorrect)], v.1 = ty' ∧ v.2.1 = fn' := by
      intro hmem
      obtain ⟨v, hv, hboth⟩ := h.typeSeen ty' fn' hmem
      exact ⟨v, List.mem_append_left _ hv, hboth⟩
    change fn' ∈ keys (get [] ty' (upsert [] ty (upsert {} fn (·.add isCorrect)) t.typeFieldCounts))
      at hmem
    rw [get_upsert] at hmem
    split at hmem
    · next heq =>
      subst heq
      rcases mem_keys_upsert.mp hmem with rfl | hmem
      · exact ⟨_, List.mem_append_right _ List.mem_cons_self, rfl, rfl⟩
      · exact hold hmem
    · exact hold hmem
  known := h.known
  own v hv := by
    rcases List.mem_append.mp hv with hv | hv
    · exact h.own v hv
    · rw [List.mem_singleton.mp hv]
      exact hty

/-- RUN: verdicts on one record. -/
theorem Tallied.verdicts (h : Tallied t vs types) (hty : ty ∈ types) (ws : List (String × Bool)) :
    Tallied (ws.foldl (fun t w => t.verdict ty w.1 w.2) t) (vs ++ ws.map fun w => (ty, w)) types := by
  induction ws generalizing t vs with
  | nil => simpa using h
  | cons w ws ih =>
    have hrest := ih (h.verdict hty w.1 w.2)
    rwa [List.append_assoc] at hrest

/-- STEP: a record. -/
theorem tallied_record (h : Tallied t vs types) (x : Outcome × EvalRecord) :
    Tallied (t.record txt x) (vs ++ verdictsOf txt x) (types ++ typesOf x) := by
  unfold Totals.record verdictsOf typesOf
  cases hok : x.1.isOk with
  | false => simpa using h
  | true =>
    have hty : storeType x.2 ∈ types ++ [storeType x.2] :=
      List.mem_append_right _ List.mem_cons_self
    have hall := (h.newType (storeType x.2)).verdicts hty
      ((fieldResults txt x).flatMap fun r => r.2.map fun isCorrect => (r.1, isCorrect))
    simpa [List.foldl_flatMap, List.foldl_map, List.map_flatMap, Function.comp_def] using hall

/-- RUN: the loop over the records. -/
theorem tallied_records (xs : List (Outcome × EvalRecord)) (h : Tallied t vs types) :
    Tallied (xs.foldl (Totals.record txt) t) (vs ++ xs.flatMap (verdictsOf txt))
      (types ++ xs.flatMap typesOf) := by
  induction xs generalizing t vs types with
  | nil => simpa using h
  | cons x xs ih =>
    have hstep : Tallied (t.record txt x) (vs ++ verdictsOf txt x) (types ++ typesOf x) :=
      tallied_record h x
    have hrest := ih hstep
    rwa [List.append_assoc, List.append_assoc] at hrest

/-! ## 4. The report adds up -/

/-- No verdict on a field. -/
def noAccuracy : FieldAccuracy := ⟨0, 0, 0⟩

/-- The fields stand in order, each with a verdict and with no more correct ones than there are. -/
structure Sane (d : List (String × FieldAccuracy)) : Prop where
  order : (keys d).Pairwise (· < ·)
  bounds : ∀ x ∈ d, 0 < x.2.total ∧ x.2.correct ≤ x.2.total ∧ 0 ≤ x.2.pct ∧ x.2.pct ≤ 100

/-- **The report adds up**: over the records, over the types, and against the labels. -/
structure Balanced (records : List EvalRecord) (results : List Outcome) (r : Report) : Prop where
  counted : r.nSuccess + r.nFailed = r.nTotal
  fields : Sane r.fieldAccuracy
  types : (keys r.byType).Pairwise (· < ·)
  typeFields : ∀ x ∈ r.byType, 0 < x.2.n ∧ Sane x.2.fieldAccuracy
  evaluated : (r.byType.map fun x => x.2.n).sum = r.nSuccess
  correct : ∀ fn, (r.byType.map fun x => (get noAccuracy fn x.2.fieldAccuracy).correct).sum =
    (get noAccuracy fn r.fieldAccuracy).correct
  total : ∀ fn, (r.byType.map fun x => (get noAccuracy fn x.2.fieldAccuracy).total).sum =
    (get noAccuracy fn r.fieldAccuracy).total
  labels : ∀ fn, (get noAccuracy fn r.fieldAccuracy).total = ((results.zip records).map fun x =>
    if x.1.isOk then labelled (normalizeLabelRecord x.2) fn else 0).sum
  overall : 0 ≤ r.overallAvgPct ∧ r.overallAvgPct ≤ 100

section Bounds

/-- The mean of percentages is one. -/
theorem mean_mem {xs : List ℚ} (h : ∀ x ∈ xs, 0 ≤ x ∧ x ≤ 100) : 0 ≤ mean xs ∧ mean xs ≤ 100 := by
  have hsum : ∀ acc : ℚ, acc ≤ xs.foldl (· + ·) acc ∧
      xs.foldl (· + ·) acc ≤ acc + 100 * xs.length := by
    induction xs with
    | nil => simp
    | cons x xs ih =>
      intro acc
      have hx := h x List.mem_cons_self
      have hrest := ih (fun y hy => h y (List.mem_cons_of_mem _ hy)) (acc + x)
      rw [List.foldl_cons, List.length_cons]
      push_cast
      constructor <;> linarith [hrest.1, hrest.2]
  unfold mean
  split_ifs with hxs
  · exact ⟨le_refl 0, by norm_num⟩
  · have hpos : (0 : ℚ) < xs.length := by exact_mod_cast List.length_pos_iff.mpr hxs
    have hbounds := hsum 0
    rw [zero_add] at hbounds
    exact ⟨div_nonneg hbounds.1 hpos.le, (div_le_iff₀ hpos).mpr hbounds.2⟩

theorem pct_mem {c : FieldCount} (h : c.correct ≤ c.total) : 0 ≤ c.pct ∧ c.pct ≤ 100 := by
  unfold FieldCount.pct
  split_ifs with hzero
  · exact ⟨le_refl 0, by norm_num⟩
  · have hpos : (0 : ℚ) < c.total := by exact_mod_cast Nat.pos_of_ne_zero hzero
    have hle : (c.correct : ℚ) / c.total ≤ 1 := (div_le_one hpos).mpr (by exact_mod_cast h)
    have hnonneg : 0 ≤ (c.correct : ℚ) / c.total := div_nonneg (Nat.cast_nonneg _) hpos.le
    have hround := roundTo_mem (a := 0) (b := 100) 1 (x := (c.correct : ℚ) / c.total * 100)
      (by push_cast; linarith) (by push_cast; linarith)
    exact_mod_cast hround

end Bounds

theorem correct_le_total (p : Verdict → Bool) : (countOf vs p).correct ≤ (countOf vs p).total :=
  List.countP_mono_left fun _ _ hv => ((Bool.and_eq_true _ _).mp hv).1

theorem get_accuracyOf {d : List (String × FieldCount)} (h : (keys d).Nodup) :
    get noAccuracy fn (accuracyOf d) =
      ⟨(get {} fn d).correct, (get {} fn d).total, (get {} fn d).pct⟩ := by
  rw [← get_sorted (z := {}) (k := fn) h]
  exact get_map (z := ({} : FieldCount)) (k := fn) (d := sorted d)
    (g := fun c => (⟨c.correct, c.total, c.pct⟩ : FieldAccuracy))

/-- A dict of counts of verdicts gives a sane one. -/
theorem sane_accuracyOf {d : List (String × FieldCount)} {p : String → Verdict → Bool}
    (h : (keys d).Nodup) (hcount : ∀ fn, get {} fn d = countOf vs (p fn))
    (hseen : ∀ fn ∈ keys d, ∃ v ∈ vs, p fn v = true) : Sane (accuracyOf d) where
  order := by
    have hkeys : keys (accuracyOf d) = keys (sorted d) := List.map_map
    rw [hkeys]
    exact sorted_keys h
  bounds x hx := by
    obtain ⟨⟨fn, c⟩, hc, rfl⟩ := List.mem_map.mp hx
    have hmem : (fn, c) ∈ d := sorted_perm.mem_iff.mp hc
    have hread : c = countOf vs (p fn) := (get_of_mem h hmem).symm.trans (hcount fn)
    obtain ⟨v, hv, hp⟩ := hseen fn (List.mem_map_of_mem hmem)
    have htotal : 0 < c.total := by
      rw [hread]
      exact List.countP_pos_iff.mpr ⟨v, hv, hp⟩
    have hle : c.correct ≤ c.total := hread ▸ correct_le_total (p fn)
    exact ⟨htotal, hle, pct_mem hle⟩

theorem tallied_aggregate (txt : Texts) (records : List EvalRecord) (results : List Outcome) :
    Tallied ((results.zip records).foldl (Totals.record txt) {})
      ((results.zip records).flatMap (verdictsOf txt)) ((results.zip records).flatMap typesOf) :=
  tallied_records (results.zip records) tallied_empty

theorem Tallied.nodup_types (h : Tallied t vs types) : (keys (sorted t.typeN)).Nodup :=
  (sorted_keys h.typeKeys).imp fun hlt => hlt.ne

/-- What stands beside a type is the number of its records. -/
theorem Tallied.n_of_mem (h : Tallied t vs types) {x : Str × Nat} (hx : x ∈ sorted t.typeN) :
    x.2 = types.count x.1 :=
  (get_of_mem h.typeKeys (sorted_perm.mem_iff.mp hx)).symm.trans (h.n x.1)

/-- The verdicts of a kind, over the types. -/
theorem Tallied.sum_byType (h : Tallied t vs types) (q : Verdict → Bool) :
    ((sorted t.typeN).map fun x => vs.countP fun v => decide (v.1 = x.1) && q v).sum = vs.countP q := by
  have hown : ∀ v ∈ vs, v.1 ∈ keys (sorted t.typeN) := fun v hv =>
    mem_keys_sorted.mpr ((h.known v.1).mpr (h.own v hv))
  have hsum := countP_by_key (p := q) h.nodup_types hown
  rw [keys, List.map_map] at hsum
  simpa only [Function.comp_def, Bool.and_comm] using hsum

/-- The records that were evaluated, over the types. -/
theorem Tallied.sum_n (h : Tallied t vs types) :
    ((sorted t.typeN).map Prod.snd).sum = types.length := by
  have hknown : ∀ ty ∈ types, ty ∈ keys (sorted t.typeN) := fun ty hty =>
    mem_keys_sorted.mpr ((h.known ty).mpr hty)
  have hsum := countP_by_key (g := id) (p := fun _ => true) h.nodup_types hknown
  rw [keys, List.map_map, List.countP_true] at hsum
  rw [← hsum]
  congr 1
  refine List.map_congr_left fun x hx => ?_
  rw [h.n_of_mem hx, List.count]
  simp [beq_eq_decide]

/-- A type that stands in the report has a record. -/
theorem Tallied.n_pos (h : Tallied t vs types) {x : Str × Nat} (hx : x ∈ sorted t.typeN) :
    0 < x.2 := by
  have hkey : x.1 ∈ keys t.typeN := List.mem_map_of_mem (sorted_perm.mem_iff.mp hx)
  rw [h.n_of_mem hx]
  exact List.count_pos_iff.mpr ((h.known x.1).mp hkey)

theorem length_types {results : List Outcome} {records : List EvalRecord}
    (hlen : results.length = records.length) :
    ((results.zip records).flatMap typesOf).length = results.countP (·.isOk) := by
  have hfst : (results.zip records).map Prod.fst = results := List.map_fst_zip hlen.le
  have hone : ∀ x : Outcome × EvalRecord, (typesOf x).length = if x.1.isOk = true then 1 else 0 := by
    intro x
    unfold typesOf
    split_ifs <;> rfl
  rw [length_flatMap_ite hone]
  conv_rhs => rw [← hfst, List.countP_map]
  simp [Function.comp_def]

section Labels

theorem append_eq_upsert (results : List (String × List Bool)) (fn : String) (val : Bool) :
    append results fn val = upsert [] fn (· ++ [val]) results := by
  induction results with
  | nil => rfl
  | cons x results ih =>
    unfold append upsert
    rw [ih]
    split_ifs with heq
    · rw [heq]
    · rfl

/-- A field stands once in the results of a record. -/
theorem nodup_results (txt : Texts) (pred gt : EvalRecord) :
    (keys (evaluateSingle txt pred gt).results).Nodup := by
  have hall : ∀ (xs : List Comparison) (s : Scores), (keys s.results).Nodup →
      (keys (xs.foldl (Scores.add txt) s).results).Nodup := by
    intro xs
    induction xs with
    | nil => exact fun _ h => h
    | cons x xs ih =>
      intro s h
      refine ih _ ?_
      unfold Scores.add
      split
      · exact h
      · rw [append_eq_upsert]
        exact nodup_upsert h
  rw [evaluateSingle_eq]
  exact hall _ _ List.nodup_nil

theorem verdicts_eq_get (s : Scores) (fn : String) : s.verdicts fn = get [] fn s.results := by
  unfold Scores.verdicts
  induction s.results with
  | nil => rfl
  | cons x results ih =>
    rw [List.lookup_cons, Counts.get]
    by_cases heq : x.1 = fn
    · simp [heq]
    · have hbeq : (fn == x.1) = false := beq_eq_false_iff_ne.mpr (Ne.symm heq)
      simp [hbeq, heq, ih]

/-- The verdicts on a field of one record. -/
theorem countP_verdictsOf (txt : Texts) (x : Outcome × EvalRecord) (fn : String) (q : Bool → Bool) :
    (verdictsOf txt x).countP (fun v => decide (v.2.1 = fn) && q v.2.2) =
      if x.1.isOk then (get [] fn (fieldResults txt x)).countP q else 0 := by
  unfold verdictsOf
  split_ifs
  · have hnodup : (keys (fieldResults txt x)).Nodup := nodup_results txt _ _
    rw [← countP_items hnodup]
    simp [List.countP_flatMap, List.countP_map, Function.comp_def]
  · rfl

/-- They are as many as the label has values for it. -/
theorem length_verdicts_record (x : Outcome × EvalRecord) (fn : String) :
    (verdictsOf txt x).countP (fun v => decide (v.2.1 = fn)) =
      if x.1.isOk then labelled (normalizeLabelRecord x.2) fn else 0 := by
  have hall := countP_verdictsOf txt x fn fun _ => true
  unfold fieldResults at hall
  rw [List.countP_true, ← verdicts_eq_get, length_verdicts] at hall
  simpa using hall

end Labels

/-- **For all records and outcomes the report adds up.** Every record is counted once; the types stand
    in order, and the records of a type, and the verdicts on its fields, sum to those of the whole
    report; a field has as many verdicts as the labels have values for it, whatever was read; and every
    percentage lies between 0 and 100. -/
theorem report_balanced (txt : Texts) (info : RunInfo) (records : List EvalRecord)
    (results : List Outcome) (hlen : results.length = records.length) :
    Balanced records results (aggregate txt info records results) := by
  have h := tallied_aggregate txt records results
  have hfields := sane_accuracyOf h.fieldKeys h.field fun fn hfn => by
    obtain ⟨v, hv, heq⟩ := h.seen fn hfn
    exact ⟨v, hv, decide_eq_true heq⟩
  have htypeFields : ∀ ty, Sane (accuracyOf (get [] ty
      ((results.zip records).foldl (Totals.record txt) {}).typeFieldCounts)) := fun ty =>
    sane_accuracyOf (h.typeFieldKeys ty) (h.typeField ty) fun fn hfn => by
      obtain ⟨v, hv, hty, heq⟩ := h.typeSeen ty fn hfn
      exact ⟨v, hv, by simp [hty, heq]⟩
  constructor
  case counted =>
    have hle : results.countP (·.isOk) ≤ results.length := List.countP_le_length
    show results.countP (·.isOk) + (results.length - results.countP (·.isOk)) = records.length
    omega
  case fields => exact hfields
  case types =>
    have hkeys := sorted_keys h.typeKeys
    rw [keys] at hkeys ⊢
    simpa [aggregate, Function.comp_def] using hkeys
  case typeFields =>
    intro x hx
    obtain ⟨y, hy, rfl⟩ := List.mem_map.mp hx
    exact ⟨h.n_pos hy, htypeFields y.1⟩
  case evaluated =>
    have hsum := h.sum_n
    rw [length_types hlen] at hsum
    simpa [aggregate, Function.comp_def] using hsum
  case correct =>
    intro fn
    have hsum := h.sum_byType fun v => decide (v.2.1 = fn) && v.2.2
    simp only [aggregate, List.map_map, Function.comp_def, get_accuracyOf h.fieldKeys,
      get_accuracyOf (h.typeFieldKeys _), h.field, h.typeField]
    simpa only [countOf, Bool.and_assoc] using hsum
  case total =>
    intro fn
    have hsum := h.sum_byType fun v => decide (v.2.1 = fn)
    simp only [aggregate, List.map_map, Function.comp_def, get_accuracyOf h.fieldKeys,
      get_accuracyOf (h.typeFieldKeys _), h.field, h.typeField]
    simpa only [countOf] using hsum
  case labels =>
    intro fn
    simp only [aggregate, get_accuracyOf h.fieldKeys, h.field, countOf, List.countP_flatMap,
      Function.comp_def, length_verdicts_record]
  case overall =>
    have hpcts : ∀ q ∈ (aggregate txt info records results).fieldAccuracy.map fun x => x.2.pct,
        0 ≤ q ∧ q ≤ 100 := by
      intro q hq
      obtain ⟨x, hx, rfl⟩ := List.mem_map.mp hq
      exact (hfields.bounds x hx).2.2
    have hmean := mean_mem hpcts
    have hround := roundTo_mem (a := 0) (b := 100) 1 (by exact_mod_cast hmean.1)
      (by exact_mod_cast hmean.2)
    exact_mod_cast hround

end Eval

open Eval

namespace Sample

def evalRun : RunInfo :=
  ⟨"v3.5".toList, "dev".toList, "dev_set.json".toList, "http://localhost:8000".toList, [], []⟩

/-- Two labels of one type, and one of another. -/
def evalLabels : List EvalRecord :=
  [⟨[("type".toList, "AEON".toList), ("total_money".toList, "10".toList)], [line ['x'] ['5']]⟩,
   ⟨[("type".toList, "AEON".toList), ("date".toList, "01/02/2024".toList)], []⟩,
   ⟨[("type".toList, "BigC".toList)], []⟩]

/-- A wrong total, no mismatch, and a request that raised. -/
def evalOutcomes : List Eval.Outcome :=
  [{ origFile := ['a'], type := "AEON".toList, status := okStatus, latencyS := 2
     mismatches := [⟨"total_money".toList, "10".toList, "12".toList⟩] },
   { origFile := ['b'], type := "AEON".toList, status := okStatus, latencyS := 3 },
   { origFile := ['c'], type := "BigC".toList, status := "exception".toList
     error := some "timed out".toList, latencyS := 0 }]

end Sample

theorem Eval.report_balanced_raised : Sample.evalOutcomes.countP (·.isOk) = 2 ∧
    Balanced Sample.evalLabels Sample.evalOutcomes
      (aggregate Sample.texts Sample.evalRun Sample.evalLabels Sample.evalOutcomes) :=
  ⟨by decide +kernel,
    report_balanced Sample.texts Sample.evalRun Sample.evalLabels Sample.evalOutcomes rfl⟩

end InvoiceOcr
