/-
  File:      InvoiceOcr/Scoring.lean
  Subject:   WHAT A SCORE COUNTS (scripts/run_eval.py, `evaluate_single`).

  * `Accounted` -- the aligned list has every predicted product once, the labelled ones' first;
  * `labelled` -- how many values the label has for a field; `Scores.wrong` -- the False verdicts;
  * **`scoring_exact`** -- so the verdicts on a field are as many as the label has values for it, and
    the mismatches as many as the False verdicts;
  * **`lines_paired_iff`** -- without a mismatch the lines are paired one to one exactly when the
    prediction has no more of them than the label: a line beyond is compared with nothing.
-/
import InvoiceOcr.Rescore

namespace InvoiceOcr

open PyJson PyText

namespace Eval

/-! ## 1. The aligned list -/

section Accounts

variable (txt : Texts) (pred gt : EvalRecord)

/-- **Every predicted product is in the aligned list once**: in the place of the labelled product it
    was chosen for, with a score, or after these. -/
def Accounted : Prop :=
  ∃ (chosen : List (Option Nat)) (left : List Nat),
    alignedPred txt gt.products pred.products =
        chosen.map (fun i => (i.bind (pred.products[·]?)).getD []) ++
          left.filterMap (pred.products[·]?) ∧
      List.Forall₂ (Greedy.Worth (score txt) pred.products) gt.products chosen ∧
      (chosen.reduceOption ++ left).Perm (List.range pred.products.length)

/-- The labelled and the predicted products are paired one to one. -/
def LinesPaired : Prop :=
  pred.products.length = gt.products.length ∧
    ∃ is : List Nat, Greedy.align (score txt) gt.products pred.products =
        (is.map (pred.products[·]?), is.reverse) ∧
      is.Perm (List.range pred.products.length)

/-- How many values the label has for a field: its own, or those of its products. -/
def labelled (fn : String) : Nat :=
  (if fn ∈ baseFields ∧ gt.fields.get fn ≠ [] then 1 else 0) +
    if fn ∈ productFields then gt.products.countP fun p => p.get fn ≠ [] else 0

/-- How many verdicts are False, over all fields. -/
def Scores.wrong (s : Scores) : Nat := (s.results.flatMap Prod.snd).count false

theorem accounted : Accounted txt pred gt := by
  obtain ⟨is, halign, hworth, hperm⟩ :=
    @Greedy.align_picks _ _ (score txt) pred.products gt.products
  refine ⟨is, _, ?_, hworth, hperm⟩
  unfold alignedPred
  rw [halign]
  simp only [List.map_map, Function.comp_def, Greedy.rest_eq]

/-! ## 2. Verdicts and mismatches -/

variable {txt pred gt}

/-- One field is compared once, and gives a verdict where the label has a value. -/
theorem length_verdictsOf {fields : List String} (hnodup : fields.Nodup) {c : String → Comparison}
    (hname : ∀ f, (c f).fieldName = f) (fn : String) :
    (fields.filterMap fun f => verdictOf txt fn (c f)).length =
      if fn ∈ fields ∧ (c fn).gt ≠ [] then 1 else 0 := by
  induction fields with
  | nil => simp
  | cons f fields ih =>
    obtain ⟨hnew, hnodup⟩ := List.nodup_cons.mp hnodup
    have hrest := ih hnodup
    by_cases hf : f = fn
    · subst hf
      rw [if_neg fun h => hnew h.1, List.length_eq_zero_iff] at hrest
      rw [List.filterMap_cons, hrest]
      unfold verdictOf compareField
      rw [if_pos (hname f)]
      by_cases hgt : (c f).gt = []
      · simp [hgt]
      · by_cases hpred : (c f).pred = [] <;> simp [hgt, hpred]
    · have hnone : verdictOf txt fn (c f) = none := if_neg fun h => hf ((hname f).symm.trans h)
      have hmem : fn ∈ f :: fields ↔ fn ∈ fields := by
        rw [List.mem_cons]
        exact or_iff_right fun h => hf h.symm
      simp only [List.filterMap_cons, hnone, hrest, hmem]

theorem length_flatMap_ite {α β : Type} {p : α → Prop} [DecidablePred p] {f : α → List β}
    (h : ∀ x, (f x).length = if p x then 1 else 0) (xs : List α) :
    (xs.flatMap f).length = xs.countP fun x => p x := by
  induction xs with
  | nil => rfl
  | cons x xs ih =>
    rw [List.flatMap_cons, List.length_append, h, ih, List.countP_cons, Nat.add_comm]
    simp only [decide_eq_true_eq]

theorem countP_range {α : Type} (p : α → Bool) (d : α) (xs : List α) :
    ((List.range xs.length).countP fun i => p (xs[i]?.getD d)) = xs.countP p := by
  have hxs : (List.range xs.length).map (fun i => xs[i]?.getD d) = xs :=
    List.ext_getElem (by simp) fun i hi hi' => by simp [hi']
  conv_rhs => rw [← hxs, List.countP_map]
  rfl

/-- **A field has as many verdicts as the label has values**, whatever was predicted. -/
theorem length_verdicts (fn : String) :
    ((evaluateSingle txt pred gt).verdicts fn).length = labelled gt fn := by
  have hlines : ∀ i, (productFields.filterMap fun f =>
      verdictOf txt fn (lineComparison txt pred gt i f)).length =
        if fn ∈ productFields ∧ (gt.products[i]?.getD []).get fn ≠ [] then 1 else 0 :=
    fun i => length_verdictsOf (c := lineComparison txt pred gt i) (by decide) (fun _ => rfl) fn
  rw [verdicts_eq, List.length_append, length_flatMap_ite hlines,
    length_verdictsOf (c := baseComparison pred gt) (by decide) (fun _ => rfl) fn,
    countP_range (fun p : Fields => decide (fn ∈ productFields ∧ p.get fn ≠ []))]
  unfold labelled
  congr 1
  split_ifs with hfn
  · simp [hfn]
  · simp [hfn]

theorem wrong_append (results : List (String × List Bool)) (fn : String) (val : Bool) :
    ((append results fn val).flatMap Prod.snd).count false =
      (results.flatMap Prod.snd).count false + if val then 0 else 1 := by
  induction results with
  | nil => cases val <;> rfl
  | cons x results ih =>
    obtain ⟨fn', vals⟩ := x
    unfold append
    split
    · cases val <;> simp [Nat.add_assoc]
    · simp only [List.flatMap_cons, List.count_append, ih, Nat.add_assoc]

/-- STEP: a comparison that is False is reported. -/
theorem wrong_add {s : Scores} (h : s.mismatches.length = s.wrong) (x : Comparison) :
    (s.add txt x).mismatches.length = (s.add txt x).wrong := by
  unfold Scores.add
  cases compareField txt x.pred x.gt x.fieldName with
  | none => exact h
  | some val =>
    unfold Scores.wrong at h ⊢
    simp only [wrong_append]
    cases val <;> simp [h]

/-- **The mismatches are the False verdicts.** -/
theorem wrong_foldl (xs : List Comparison) {s : Scores} (h : s.mismatches.length = s.wrong) :
    (xs.foldl (Scores.add txt) s).mismatches.length = (xs.foldl (Scores.add txt) s).wrong := by
  induction xs generalizing s with
  | nil => exact h
  | cons x xs ih => exact ih (wrong_add h x)

/-- **The bookkeeping of a score is exact**: no predicted product is lost or used twice, a field has a
    verdict for every value the label has, and every False verdict is a mismatch. -/
theorem scoring_exact (txt : Texts) (pred gt : EvalRecord) :
    Accounted txt pred gt ∧
      (∀ fn, ((evaluateSingle txt pred gt).verdicts fn).length = labelled gt fn) ∧
      (evaluateSingle txt pred gt).mismatches.length = (evaluateSingle txt pred gt).wrong := by
  refine ⟨accounted txt pred gt, length_verdicts, ?_⟩
  rw [evaluateSingle_eq]
  exact wrong_foldl _ rfl

/-! ## 3. A score without a mismatch -/

theorem map_some_reduceOption {α : Type} {xs : List (Option α)} (h : ∀ x ∈ xs, x ≠ none) :
    xs.reduceOption.map some = xs := by
  induction xs with
  | nil => rfl
  | cons x xs ih =>
    obtain ⟨hx, hxs⟩ := List.forall_mem_cons.mp h
    obtain ⟨a, rfl⟩ := Option.ne_none_iff_exists'.mp hx
    rw [List.reduceOption_cons_of_some, List.map_cons, ih hxs]

/-- Without a mismatch no labelled product that has a value is left without a predicted one. -/
theorem chosen_of_perfect (hperfect : (evaluateSingle txt pred gt).mismatches = [])
    (hlabelled : ∀ g ∈ gt.products, ∃ fn ∈ productFields, g.get fn ≠ [])
    {is : List (Option Nat)} (hlength : gt.products.length = is.length)
    (halign : (Greedy.align (score txt) gt.products pred.products).1 =
      is.map fun i => i.bind (pred.products[·]?)) : ∀ i ∈ is, i ≠ none := by
  intro i hi hnone
  obtain ⟨k, hk, rfl⟩ := List.getElem_of_mem hi
  have hk' : k < gt.products.length := hlength ▸ hk
  have hagrees := ((mismatches_evaluateSingle pred gt).mp hperfect).2 k hk'
  rw [alignedPred_getElem? hk' (by rw [halign, List.length_map, hlength]), halign, List.getElem?_map,
    List.getElem?_eq_getElem hk, hnone, List.getElem?_eq_getElem hk'] at hagrees
  obtain ⟨fn, hfn, hvalue⟩ := hlabelled _ (List.getElem_mem hk')
  exact hvalue (agrees_nil_iff.mp hagrees fn hfn)

/-- **A score without a mismatch means the same lines exactly when the prediction has no more lines
    than the label.** -/
theorem lines_paired_iff (hperfect : (evaluateSingle txt pred gt).mismatches = [])
    (hlabelled : ∀ g ∈ gt.products, ∃ fn ∈ productFields, g.get fn ≠ []) :
    LinesPaired txt pred gt ↔ pred.products.length ≤ gt.products.length := by
  constructor
  · exact fun h => h.1.le
  · intro hlines
    obtain ⟨is, halign, hworth, hperm⟩ :=
      @Greedy.align_picks _ _ (score txt) pred.products gt.products
    have hchosen := chosen_of_perfect hperfect hlabelled hworth.length_eq (congrArg Prod.fst halign)
    obtain ⟨js, rfl⟩ : ∃ js : List Nat, is = js.map some :=
      ⟨is.reduceOption, (map_some_reduceOption hchosen).symm⟩
    have hjs : (js.map some).reduceOption = js := by
      unfold List.reduceOption
      simp
    have hlength : gt.products.length = js.length := by rw [hworth.length_eq, List.length_map]
    rw [hjs] at hperm
    -- the label has taken as many places as there are, so none is left over
    have hcount := hperm.length_eq
    rw [List.length_append, List.length_range] at hcount
    have hleft : Greedy.unused js.reverse pred.products.length = [] :=
      List.length_eq_zero_iff.mp (by omega)
    rw [hleft, List.append_nil] at hperm
    refine ⟨by omega, js, ?_, hperm⟩
    rw [halign, hjs, List.map_map]
    rfl

end Accounts

end Eval

open Eval

namespace Sample

/-- A label with one product, and a prediction of it. -/
def oneLine : EvalRecord := ⟨[], [line longName ['1', '0']]⟩

/-- A prediction with a product that is not on the label. -/
def inventedLine : EvalRecord := ⟨[], [line longName ['1', '0'], line ['x'] ['9', '9']]⟩

end Sample

theorem lines_paired_oneLine : LinesPaired Sample.similar Sample.oneLine Sample.oneLine :=
  (lines_paired_iff (by decide +kernel) (by decide +kernel)).mpr (Nat.le_refl _)

/-- **An invented line costs nothing**: there is no mismatch, and the prediction has a line more. -/
theorem line_invented :
    (evaluateSingle Sample.similar Sample.inventedLine Sample.oneLine).mismatches = [] ∧
      (∀ g ∈ Sample.oneLine.products, ∃ fn ∈ productFields, g.get fn ≠ []) ∧
      ¬ LinesPaired Sample.similar Sample.inventedLine Sample.oneLine := by
  refine ⟨by decide +kernel, by decide +kernel, fun h => ?_⟩
  exact absurd h.1 (by decide)

end InvoiceOcr
