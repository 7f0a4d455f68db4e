/-
  File:      InvoiceOcr/Rescore.lean
  Subject:   SCORING A RECONSTRUCTION (scripts/run_eval.py): the report does not score the predictions
             but what `_build_pred_skeleton` puts together from the mismatches and the label.

  * `Place`, `EvalRecord.put` -- what one mismatch overwrites;
  * `buildPredSkeleton` -- as the script has it;
  * `verdicts` -- the verdicts of a field, `rebuiltLine` -- a product line as it is put together;
  * `Realigns` -- the greedy matcher gives every label line its own reconstruction back;
    `Realigns.lost` -- lines without a reconstruction have nothing to lose, unless whitespace was
    aligned with them;
  * **`skeleton_verdicts`** -- then the reconstruction gets the verdicts of the prediction;
  * **`skeleton_realigned`** -- a name that is right but for one character is enough to break it.
-/
import InvoiceOcr.Evaluation

namespace InvoiceOcr

open PyJson PyText

namespace Eval

/-! ## 1. The reconstruction -/

/-- `d[k] = v`: a present key keeps its place. -/
def Fields.set (d : Fields) (k v : Str) : Fields :=
  match d with
  | [] => [(k, v)]
  | (k', v') :: d => if k' = k then (k, v) :: d else (k', v') :: Fields.set d k v

/-- What a mismatch is about: a base field, or a field of a product. -/
inductive Place where
  | base (field : Str)
  | product (i : Nat) (field : Str)
  deriving DecidableEq, Repr

/-- `int(s)` of decimals. -/
def intOfDecimals (s : Str) : Nat := s.foldl (fun n c => 10 * n + (decimal? c).getD 0) 0

/-- `re.match(r"product\[(\d+)\]\.(.+)", field)`; no dot matches a newline. -/
def placeOf (field : Str) : Place :=
  if "product[".toList.isPrefixOf field then
    let rest := field.drop 8
    let digits := rest.takeWhile isDecimal
    match rest.drop digits.length with
    | ']' :: '.' :: name =>
      if digits = [] ∨ name.takeWhile (· ≠ '\n') = [] then .base field
      else .product (intOfDecimals digits) (name.takeWhile (· ≠ '\n'))
    | _ => .base field
  else .base field

/-- `pred[field] = predicted`, or `prods[idx][pf] = predicted` in a list long enough. -/
def EvalRecord.put (r : EvalRecord) (place : Place) (predicted : Str) : EvalRecord :=
  match place with
  | .base field => { r with fields := r.fields.set field predicted }
  | .product i field =>
    let prods := r.products ++ List.replicate (i + 1 - r.products.length) []
    { r with products := prods.modify i fun p => p.set field predicted }

/-- `_build_pred_skeleton`. -/
def buildPredSkeleton (mismatches : List Mismatch) (gt : EvalRecord) : EvalRecord :=
  mismatches.foldl (fun pred m => pred.put (placeOf m.field) m.predicted) gt

/-- The verdicts of a field. -/
def Scores.verdicts (s : Scores) (fn : String) : List Bool := (s.results.lookup fn).getD []

/-- What is scored for the report. -/
def rescored (txt : Texts) (pred gt : EvalRecord) : Scores :=
  evaluateSingle txt (buildPredSkeleton (evaluateSingle txt pred gt).mismatches gt) gt

/-- **The report is the accuracy of the prediction**: every field has as many verdicts, and as many
    of them are right. -/
def SameAccuracy (txt : Texts) (pred gt : EvalRecord) : Prop :=
  ∀ fn, ((rescored txt pred gt).verdicts fn).length =
      ((evaluateSingle txt pred gt).verdicts fn).length ∧
    ((rescored txt pred gt).verdicts fn).count true =
      ((evaluateSingle txt pred gt).verdicts fn).count true

/-! ## 2. What is overwritten -/

/-- The text at a place; `""` where there is none. -/
def EvalRecord.value (r : EvalRecord) : Place → Str
  | .base field => (r.fields.lookup field).getD []
  | .product i field => ((r.products[i]?.getD []).lookup field).getD []

section Values

variable {r : EvalRecord} {place place' : Place} {v : Str}

theorem lookup_cons_if {κ β : Type} [BEq κ] [LawfulBEq κ] [DecidableEq κ] (k k₀ : κ) (v₀ : β) (d : List (κ × β)) :
    List.lookup k ((k₀, v₀) :: d) = if k = k₀ then some v₀ else d.lookup k := by
  rw [List.lookup_cons]
  by_cases h : k = k₀
  · rw [if_pos h, beq_iff_eq.mpr h]
  · rw [if_neg h, beq_eq_false_iff_ne.mpr h]

theorem lookup_set (d : Fields) (k k' v : Str) :
    (d.set k v).lookup k' = if k' = k then some v else d.lookup k' := by
  induction d with
  | nil => exact lookup_cons_if k' k v []
  | cons x d ih =>
    obtain ⟨k₀, v₀⟩ := x
    unfold Fields.set
    by_cases h₀ : k₀ = k
    · subst h₀
      rw [if_pos rfl, lookup_cons_if, lookup_cons_if]
      split <;> rfl
    · rw [if_neg h₀, lookup_cons_if, lookup_cons_if, ih]
      by_cases h : k' = k₀
      · rw [if_pos h, if_neg (h ▸ h₀), if_pos h]
      · rw [if_neg h, if_neg h]

theorem getElem?_longer (prods : List Fields) (n i : Nat) :
    (prods ++ List.replicate n [])[i]?.getD [] = prods[i]?.getD [] := by
  rw [List.getElem?_append]
  split
  · rfl
  · next h =>
    rw [List.getElem?_eq_none (Nat.not_lt.mp h), List.getElem?_replicate]
    split <;> rfl

/-- **One place is overwritten, and no other.** -/
theorem value_put : (r.put place v).value place' = if place' = place then v else r.value place' := by
  cases place with
  | base field =>
    cases place' with
    | base field' =>
      simp only [EvalRecord.put, EvalRecord.value, lookup_set, Place.base.injEq]
      split <;> rfl
    | product i field' => simp [EvalRecord.put, EvalRecord.value]
  | product i field =>
    cases place' with
    | base field' => simp [EvalRecord.put, EvalRecord.value]
    | product j field' =>
      have hlong : i < (r.products ++ List.replicate (i + 1 - r.products.length) []).length := by
        rw [List.length_append, List.length_replicate]
        omega
      simp only [EvalRecord.put, EvalRecord.value, Place.product.injEq, List.getElem?_modify]
      by_cases hij : i = j
      · subst hij
        have hget := getElem?_longer r.products (i + 1 - r.products.length) i
        rw [List.getElem?_eq_getElem hlong] at hget ⊢
        simp only [Option.getD_some] at hget
        simp only [if_true, Option.map_eq_map, Option.map_some, Option.getD_some, lookup_set, hget,
          true_and]
        split <;> rfl
      · simp only [hij, Ne.symm hij, if_false, false_and, Option.map_eq_map, Option.map_id',
          getElem?_longer]

/-- A place of the record: it does not make the list of products longer. -/
def Place.Within (n : Nat) : Place → Prop
  | .base _ => True
  | .product i _ => i < n

theorem length_put (h : place.Within r.products.length) :
    (r.put place v).products.length = r.products.length := by
  cases place with
  | base field => rfl
  | product i field =>
    unfold Place.Within at h
    simp only [EvalRecord.put, List.length_modify, List.length_append, List.length_replicate]
    omega

variable {ms : List Mismatch}

/-- **What the mismatches make of a place** on which they agree. -/
theorem value_buildPredSkeleton (h : ∀ m ∈ ms, placeOf m.field = place → m.predicted = v) :
    (buildPredSkeleton ms r).value place =
      if ∃ m ∈ ms, placeOf m.field = place then v else r.value place := by
  unfold buildPredSkeleton
  induction ms generalizing r with
  | nil => simp
  | cons m ms ih =>
    rw [List.foldl_cons, ih fun m' hm' => h m' (List.mem_cons_of_mem m hm'), value_put]
    by_cases hlater : ∃ m' ∈ ms, placeOf m'.field = place
    · have hsome : ∃ m' ∈ m :: ms, placeOf m'.field = place :=
        hlater.imp fun _ hm' => ⟨List.mem_cons_of_mem m hm'.1, hm'.2⟩
      rw [if_pos hlater, if_pos hsome]
    · rw [if_neg hlater]
      by_cases hm : placeOf m.field = place
      · rw [if_pos hm.symm, if_pos ⟨m, List.mem_cons_self, hm⟩]
        exact h m List.mem_cons_self hm
      · rw [if_neg (Ne.symm hm), if_neg]
        intro ⟨m', hm', heq⟩
        rcases List.mem_cons.mp hm' with rfl | hm'
        · exact hm heq
        · exact hlater ⟨m', hm', heq⟩

theorem length_buildPredSkeleton (h : ∀ m ∈ ms, (placeOf m.field).Within r.products.length) :
    (buildPredSkeleton ms r).products.length = r.products.length := by
  unfold buildPredSkeleton
  induction ms generalizing r with
  | nil => rfl
  | cons m ms ih =>
    have hput := @length_put r (placeOf m.field) m.predicted (h m List.mem_cons_self)
    rw [List.foldl_cons, ih fun m' hm' => ?_, hput]
    rw [hput]
    exact h m' (List.mem_cons_of_mem m hm')

end Values

/-! ## 3. Verdicts and reports, comparison by comparison -/

section Comparisons

variable (txt : Texts)

/-- All comparisons of `evaluate_single`. -/
def comparisons (pred gt : EvalRecord) : List Comparison :=
  let aligned := alignedPred txt gt.products pred.products
  baseComparisons pred gt ++
    (List.range (max gt.products.length aligned.length)).flatMap
      (productComparison aligned gt.products)

theorem evaluateSingle_eq (pred gt : EvalRecord) :
    evaluateSingle txt pred gt = (comparisons txt pred gt).foldl (Scores.add txt) {} := by
  unfold evaluateSingle comparisons
  rw [List.foldl_append]

/-- The verdict of a comparison, if it is one on `fn`. -/
def verdictOf (fn : String) (x : Comparison) : Option Bool :=
  if x.fieldName = fn then compareField txt x.pred x.gt x.fieldName else none

/-- What a comparison reports. -/
def reportOf (x : Comparison) : Option Mismatch :=
  if compareField txt x.pred x.gt x.fieldName = some false then
    some ⟨x.label, strip x.gt, strip x.pred⟩
  else none

variable {txt}

theorem lookup_append (results : List (String × List Bool)) (fn fn' : String) (val : Bool) :
    (append results fn val).lookup fn' =
      if fn' = fn then some ((results.lookup fn).getD [] ++ [val]) else results.lookup fn' := by
  induction results with
  | nil => exact lookup_cons_if fn' fn [val] []
  | cons x results ih =>
    obtain ⟨fn₀, vals⟩ := x
    unfold append
    by_cases h₀ : fn₀ = fn
    · subst h₀
      rw [if_pos rfl, lookup_cons_if, lookup_cons_if, lookup_cons_if, if_pos rfl]
      split <;> rfl
    · rw [if_neg h₀, lookup_cons_if, lookup_cons_if, lookup_cons_if, ih, if_neg (Ne.symm h₀)]
      by_cases h : fn' = fn₀
      · rw [if_pos h, if_neg (h ▸ h₀), if_pos h]
      · rw [if_neg h, if_neg h]

theorem verdicts_add (s : Scores) (x : Comparison) (fn : String) :
    (s.add txt x).verdicts fn = s.verdicts fn ++ (verdictOf txt fn x).toList := by
  unfold Scores.add Scores.verdicts verdictOf
  cases hval : compareField txt x.pred x.gt x.fieldName with
  | none => simp
  | some val =>
    simp only [lookup_append]
    by_cases h : x.fieldName = fn
    · rw [if_pos h.symm, if_pos h, h]
      rfl
    · rw [if_neg (Ne.symm h), if_neg h]
      simp

/-- **The verdicts of a field**, in the order of the comparisons. -/
theorem verdicts_foldl (xs : List Comparison) (s : Scores) (fn : String) :
    (xs.foldl (Scores.add txt) s).verdicts fn = s.verdicts fn ++ xs.filterMap (verdictOf txt fn) := by
  induction xs generalizing s with
  | nil => simp
  | cons x xs ih =>
    rw [List.foldl_cons, ih, verdicts_add, List.append_assoc, List.filterMap_cons]
    cases verdictOf txt fn x <;> rfl

theorem verdicts_evaluateSingle (pred gt : EvalRecord) (fn : String) :
    (evaluateSingle txt pred gt).verdicts fn =
      (comparisons txt pred gt).filterMap (verdictOf txt fn) := by
  rw [evaluateSingle_eq, verdicts_foldl]
  rfl

/-- **The reports**, in the order of the comparisons. -/
theorem reports_foldl (xs : List Comparison) (s : Scores) :
    (xs.foldl (Scores.add txt) s).mismatches = s.mismatches ++ xs.filterMap (reportOf txt) := by
  induction xs generalizing s with
  | nil => simp
  | cons x xs ih =>
    rw [List.foldl_cons, ih, List.filterMap_cons]
    unfold Scores.add reportOf
    cases compareField txt x.pred x.gt x.fieldName with
    | none => simp
    | some val => cases val <;> simp

theorem mem_mismatches {pred gt : EvalRecord} {m : Mismatch} :
    m ∈ (evaluateSingle txt pred gt).mismatches ↔ ∃ x ∈ comparisons txt pred gt,
      compareField txt x.pred x.gt x.fieldName = some false ∧
        m = ⟨x.label, strip x.gt, strip x.pred⟩ := by
  rw [evaluateSingle_eq, reports_foldl]
  unfold reportOf
  simp only [List.nil_append, List.mem_filterMap, Option.ite_none_right_eq_some, Option.some.injEq]
  exact exists_congr fun x => and_congr_right fun _ => and_congr_right fun _ => eq_comm

end Comparisons

/-! ## 4. Where a comparison is reported -/

section Places

theorem intOfDecimals_natStr (i : Nat) : intOfDecimals (natStr i) = i := by
  have hfold : ∀ (ds : Str) (n : Nat), (∀ c ∈ ds, c.isDigit = true) →
      ds.foldl (fun n c => 10 * n + (decimal? c).getD 0) n = Nat.ofDigitChars 10 ds n := by
    intro ds
    induction ds with
    | nil => exact fun _ _ => rfl
    | cons c ds ih =>
      intro n h
      rw [List.foldl_cons, ih _ fun d hd => h d (List.mem_cons_of_mem c hd), Nat.ofDigitChars_cons,
        decimal_isDigit (h c List.mem_cons_self)]
      rfl
  unfold intOfDecimals natStr
  rw [hfold _ 0 (digits_toDigits i)]
  exact Nat.ofDigitChars_ten_toDigits

theorem takeWhile_natStr (i : Nat) (s : Str) :
    (natStr i ++ ']' :: s).takeWhile isDecimal = natStr i := by
  have hdigits : ∀ c ∈ natStr i, isDecimal c = true := fun c hc =>
    isDecimal_of_isDigit (digits_toDigits i c hc)
  rw [List.takeWhile_append_of_pos hdigits, List.takeWhile_cons_of_neg (by decide), List.append_nil]

/-- What is reported of a product is read back as what it is about. -/
theorem placeOf_product (i : Nat) {fn : String} (h : fn ∈ productFields) :
    placeOf ("product[".toList ++ natStr i ++ "].".toList ++ fn.toList) =
      .product i fn.toList := by
  have hname : fn.toList.takeWhile (· ≠ '\n') = fn.toList ∧ fn.toList ≠ [] := by
    revert fn
    decide
  have hshape : "product[".toList ++ natStr i ++ "].".toList ++ fn.toList =
      "product[".toList ++ (natStr i ++ ']' :: '.' :: fn.toList) := by
    simp
  have hdrop : ("product[".toList ++ (natStr i ++ ']' :: '.' :: fn.toList)).drop 8 =
      natStr i ++ ']' :: '.' :: fn.toList := by
    have hlength : "product[".toList.length = 8 := by decide
    rw [← hlength, List.drop_left]
  have hne : natStr i ≠ [] := Nat.toDigits_ne_nil
  unfold placeOf
  rw [hshape, if_pos (List.isPrefixOf_iff_prefix.mpr (List.prefix_append _ _))]
  simp only [hdrop, takeWhile_natStr, List.drop_left, hname.1, hname.2, hne, or_self, if_false,
    intOfDecimals_natStr]

theorem placeOf_base {fn : String} (h : fn ∈ baseFields) : placeOf fn.toList = .base fn.toList := by
  revert fn
  decide

end Places

/-! ## 5. What the reconstruction holds -/

section Reconstruction

variable (txt : Texts) (pred gt : EvalRecord)

/-- What is kept of a field: the label where the prediction was not wrong, else the prediction. -/
def kept (predicted label : Str) (fn : String) : Str :=
  if compareField txt predicted label fn = some false then strip predicted else label

/-- The label's product `i`, and the prediction's for it. -/
def labelLine (i : Nat) : Fields := gt.products[i]?.getD []

def predLine (i : Nat) : Fields := (alignedPred txt gt.products pred.products)[i]?.getD []

/-- A product line as it is put together. -/
def rebuiltLine (i : Nat) : Fields :=
  productFields.map fun fn =>
    (fn.toList, kept txt ((predLine txt pred gt i).get fn) ((labelLine gt i).get fn) fn)

/-- The comparison of a base field. -/
def baseComparison (fn : String) : Comparison :=
  ⟨fn.toList, fn, pred.fields.get fn, gt.fields.get fn⟩

/-- The comparison of a field of product `i`. -/
def lineComparison (i : Nat) (fn : String) : Comparison :=
  ⟨"product[".toList ++ natStr i ++ "].".toList ++ fn.toList, fn, (predLine txt pred gt i).get fn,
    (labelLine gt i).get fn⟩

variable {txt pred gt} {x y : Comparison}

theorem baseComparisons_eq : baseComparisons pred gt = baseFields.map (baseComparison pred gt) := rfl

theorem productComparison_eq (i : Nat) :
    productComparison (alignedPred txt gt.products pred.products) gt.products i =
      productFields.map (lineComparison txt pred gt i) := rfl

theorem mem_comparisons (h : x ∈ comparisons txt pred gt) :
    (∃ fn ∈ baseFields, baseComparison pred gt fn = x) ∨
      ∃ i, ∃ fn ∈ productFields, lineComparison txt pred gt i fn = x := by
  rcases List.mem_append.mp h with h | h
  · rw [baseComparisons_eq] at h
    exact Or.inl (List.mem_map.mp h)
  · obtain ⟨i, _, h⟩ := List.mem_flatMap.mp h
    rw [productComparison_eq] at h
    exact Or.inr ⟨i, List.mem_map.mp h⟩

variable (txt pred gt) in
theorem base_mem {fn : String} (h : fn ∈ baseFields) :
    baseComparison pred gt fn ∈ comparisons txt pred gt := by
  refine List.mem_append_left _ ?_
  rw [baseComparisons_eq]
  exact List.mem_map_of_mem h

variable (txt pred) in
theorem line_mem {i : Nat} (hi : i < gt.products.length) {fn : String} (h : fn ∈ productFields) :
    lineComparison txt pred gt i fn ∈ comparisons txt pred gt := by
  refine List.mem_append_right _ (List.mem_flatMap.mpr ⟨i, List.mem_range.mpr ?_, ?_⟩)
  · exact lt_of_lt_of_le hi (Nat.le_max_left _ _)
  · rw [productComparison_eq]
    exact List.mem_map_of_mem h

theorem placeOf_baseComparison {fn : String} (h : fn ∈ baseFields) :
    placeOf (baseComparison pred gt fn).label = .base fn.toList := placeOf_base h

theorem placeOf_lineComparison (i : Nat) {fn : String} (h : fn ∈ productFields) :
    placeOf (lineComparison txt pred gt i fn).label = .product i fn.toList := placeOf_product i h

/-- **No two comparisons are reported in one place.** -/
theorem comparison_unique (hx : x ∈ comparisons txt pred gt) (hy : y ∈ comparisons txt pred gt)
    (h : placeOf x.label = placeOf y.label) : x = y := by
  rcases mem_comparisons hx with ⟨fn, hfn, rfl⟩ | ⟨i, fn, hfn, rfl⟩
  · rw [placeOf_baseComparison hfn] at h
    rcases mem_comparisons hy with ⟨fn', hfn', rfl⟩ | ⟨j, fn', hfn', rfl⟩
    · rw [placeOf_baseComparison hfn', Place.base.injEq, String.toList_inj] at h
      rw [h]
    · rw [placeOf_lineComparison j hfn'] at h
      simp at h
  · rw [placeOf_lineComparison i hfn] at h
    rcases mem_comparisons hy with ⟨fn', hfn', rfl⟩ | ⟨j, fn', hfn', rfl⟩
    · rw [placeOf_baseComparison hfn'] at h
      simp at h
    · rw [placeOf_lineComparison j hfn', Place.product.injEq, String.toList_inj] at h
      rw [h.1, h.2]

/-- The label has, in the place of a comparison, what it compares with. -/
theorem value_label (hx : x ∈ comparisons txt pred gt) : gt.value (placeOf x.label) = x.gt := by
  rcases mem_comparisons hx with ⟨fn, hfn, rfl⟩ | ⟨i, fn, hfn, rfl⟩
  · rw [placeOf_baseComparison hfn]
    rfl
  · rw [placeOf_lineComparison i hfn]
    rfl

/-- **What the reconstruction has in the place of a comparison.** -/
theorem value_skeleton (hx : x ∈ comparisons txt pred gt) :
    (buildPredSkeleton (evaluateSingle txt pred gt).mismatches gt).value (placeOf x.label) =
      kept txt x.pred x.gt x.fieldName := by
  have hsame : ∀ m ∈ (evaluateSingle txt pred gt).mismatches, placeOf m.field = placeOf x.label →
      compareField txt x.pred x.gt x.fieldName = some false ∧ m.predicted = strip x.pred := by
    intro m hm hplace
    obtain ⟨y, hy, hwrong, rfl⟩ := mem_mismatches.mp hm
    obtain rfl := comparison_unique hy hx hplace
    exact ⟨hwrong, rfl⟩
  rw [value_buildPredSkeleton fun m hm hplace => (hsame m hm hplace).2, value_label hx]
  unfold kept
  by_cases hwrong : compareField txt x.pred x.gt x.fieldName = some false
  · rw [if_pos hwrong, if_pos ⟨_, mem_mismatches.mpr ⟨x, hx, hwrong, rfl⟩, rfl⟩]
  · rw [if_neg hwrong, if_neg]
    intro ⟨m, hm, hplace⟩
    exact hwrong (hsame m hm hplace).1

/-- The reconstruction has as many products as the label: nothing is wrong beyond them. -/
theorem length_skeleton :
    (buildPredSkeleton (evaluateSingle txt pred gt).mismatches gt).products.length =
      gt.products.length := by
  refine length_buildPredSkeleton fun m hm => ?_
  obtain ⟨x, hx, hwrong, rfl⟩ := mem_mismatches.mp hm
  rcases mem_comparisons hx with ⟨fn, hfn, rfl⟩ | ⟨i, fn, hfn, rfl⟩
  · rw [placeOf_baseComparison hfn]
    trivial
  · rw [placeOf_lineComparison i hfn]
    by_contra hbeyond
    have hnothing : (lineComparison txt pred gt i fn).gt = [] := by
      show (gt.products[i]?.getD []).get fn = []
      rw [List.getElem?_eq_none (Nat.not_lt.mp hbeyond)]
      rfl
    rw [hnothing] at hwrong
    simp [compareField] at hwrong

/-- The reconstructed prediction. -/
def skeleton (txt : Texts) (pred gt : EvalRecord) : EvalRecord :=
  buildPredSkeleton (evaluateSingle txt pred gt).mismatches gt

theorem get_skeleton {fn : String} (h : fn ∈ baseFields) :
    (skeleton txt pred gt).fields.get fn = kept txt (pred.fields.get fn) (gt.fields.get fn) fn := by
  have hvalue := value_skeleton (base_mem txt pred gt h)
  rw [placeOf_baseComparison h] at hvalue
  exact hvalue

theorem get_rebuiltLine (i : Nat) {fn : String} (h : fn ∈ productFields) :
    (rebuiltLine txt pred gt i).get fn =
      kept txt ((predLine txt pred gt i).get fn) ((labelLine gt i).get fn) fn := by
  simp only [productFields, List.mem_cons, List.not_mem_nil, or_false] at h
  rcases h with rfl | rfl | rfl | rfl | rfl <;> rfl

/-- Product `i` of the reconstruction reads as the line that is put together. -/
theorem get_skeletonLine {i : Nat} (hi : i < gt.products.length) {fn : String}
    (h : fn ∈ productFields) :
    Fields.get ((skeleton txt pred gt).products[i]?.getD []) fn =
      (rebuiltLine txt pred gt i).get fn := by
  have hvalue := value_skeleton (line_mem txt pred hi h)
  rw [placeOf_lineComparison i h] at hvalue
  rw [get_rebuiltLine i h]
  exact hvalue

end Reconstruction

/-! ## 6. The verdicts of the reconstruction -/

section Verdicts

variable {txt : Texts} {pred gt : EvalRecord}

/-- **What is kept of a field has the verdict of the field.** -/
theorem compare_kept (hratio : ∀ s, txt.ratio s s = 1) (predicted label : Str) (fn : String) :
    compareField txt (kept txt predicted label fn) label fn =
      compareField txt predicted label fn := by
  unfold kept
  by_cases hwrong : compareField txt predicted label fn = some false
  · rw [if_pos hwrong]
    unfold compareField at hwrong ⊢
    by_cases hlabel : label = []
    · rw [if_pos hlabel, if_pos hlabel]
    · rw [if_neg hlabel] at hwrong ⊢
      rw [if_neg hlabel]
      by_cases hempty : predicted = []
      · rw [if_pos hempty, hempty]
        exact if_pos rfl
      · rw [if_neg hempty] at hwrong ⊢
        by_cases hblank : strip predicted = []
        · rw [if_pos hblank, hwrong]
        · rw [if_neg hblank, strip_strip]
  · rw [if_neg hwrong]
    unfold compareField at hwrong ⊢
    by_cases hlabel : label = []
    · rw [if_pos hlabel, if_pos hlabel]
    · have hself : agree txt (txt.lower (strip label)) (txt.lower (strip label)) fn = true := by
        unfold agree
        rw [hratio]
        split
        · exact decide_eq_true rfl
        split
        · exact decide_eq_true rfl
        split
        · exact decide_eq_true rfl
        split
        · decide +kernel
        · exact decide_eq_true rfl
      rw [if_neg hlabel] at hwrong
      rw [if_neg hlabel, if_neg hlabel, if_neg hlabel, hself]
      by_cases hempty : predicted = []
      · rw [if_pos hempty] at hwrong
        exact absurd rfl hwrong
      · rw [if_neg hempty] at hwrong ⊢
        cases hagree : agree txt (txt.lower (strip predicted)) (txt.lower (strip label)) fn with
        | false =>
          rw [hagree] at hwrong
          exact absurd rfl hwrong
        | true => rfl

/-- A line that gets nothing has no verdict that is right. -/
theorem compare_nothing {predicted label : Str} {fn : String}
    (h : compareField txt predicted label fn ≠ some true) :
    compareField txt [] label fn = compareField txt predicted label fn := by
  unfold compareField at h ⊢
  by_cases hlabel : label = []
  · rw [if_pos hlabel, if_pos hlabel]
  · rw [if_neg hlabel] at h
    rw [if_neg hlabel, if_neg hlabel, if_pos rfl]
    by_cases hempty : predicted = []
    · rw [if_pos hempty]
    · rw [if_neg hempty] at h ⊢
      cases hagree : agree txt (txt.lower (strip predicted)) (txt.lower (strip label)) fn with
      | false => rfl
      | true =>
        rw [hagree] at h
        exact absurd rfl h

/-- A score reads the fields of a product only. -/
theorem score_congr {g p p' : Fields} (h : ∀ fn ∈ productFields, p.get fn = p'.get fn) :
    score txt g p = score txt g p' := by
  unfold score
  rw [h "product_unit_price" (by decide), h "product_total_money" (by decide),
    h "product_name" (by decide)]

variable (txt pred gt)

/-- The line is aligned with a price or a total of nothing but whitespace: it may be worth something to
    the label, as a zero, but nothing once it is stripped. -/
def Faded (i : Nat) : Prop :=
  ∃ fn ∈ ["product_unit_price", "product_total_money"],
    (predLine txt pred gt i).get fn ≠ [] ∧ strip ((predLine txt pred gt i).get fn) = []

/-- **Every label line gets its own reconstruction back**: none of a later line scores higher for it. A
    line that whitespace was aligned with, and whose own reconstruction scores nothing, has no right
    verdict to lose, and for no later line does it score anything above that line's own. -/
structure Realigns : Prop where
  later : ∀ i j, i < j → j < gt.products.length →
    score txt (labelLine gt i) (rebuiltLine txt pred gt j) ≤
      score txt (labelLine gt i) (rebuiltLine txt pred gt i)
  faded : ∀ i < gt.products.length, Faded txt pred gt i →
    score txt (labelLine gt i) (rebuiltLine txt pred gt i) = 0 →
      (∀ fn ∈ productFields, compareField txt ((predLine txt pred gt i).get fn)
        ((labelLine gt i).get fn) fn ≠ some true) ∧
      ∀ j, i < j → j < gt.products.length →
        score txt (labelLine gt j) (rebuiltLine txt pred gt i) <
          max 1 (score txt (labelLine gt j) (rebuiltLine txt pred gt j))

variable {txt pred gt}

/-- A label line is aligned with nothing, or with what is worth something to it. -/
theorem predLine_worth {i : Nat} (hi : i < gt.products.length) : predLine txt pred gt i = [] ∨
    0 < score txt (labelLine gt i) (predLine txt pred gt i) := by
  obtain ⟨is, hpicks, hworth, -⟩ :=
    @Greedy.align_picks _ _ (score txt) pred.products gt.products
  have hlength : (Greedy.align (score txt) gt.products pred.products).1.length =
      gt.products.length := by
    rw [hpicks, List.length_map]
    exact hworth.length_eq.symm
  have hi' : i < is.length := hworth.length_eq ▸ hi
  have hline : predLine txt pred gt i = ((is[i].bind (pred.products[·]?))).getD [] := by
    unfold predLine
    rw [alignedPred_getElem? hi hlength, hpicks, List.getElem?_map, List.getElem?_eq_getElem hi']
    rfl
  have hpick := hworth.get hi hi'
  simp only [List.get_eq_getElem] at hpick
  rw [hline]
  cases hplace : is[i] with
  | none => exact Or.inl rfl
  | some j =>
    obtain ⟨x, hx, hpos⟩ := hpick j hplace
    refine Or.inr ?_
    rw [Option.bind_some, hx]
    unfold labelLine
    rw [List.getElem?_eq_getElem hi]
    exact hpos

/-- What is kept of a price that is worth something is worth the same, unless it fades. -/
theorem money_kept {predicted label : Str} {fn : String} (hlabel : normalizeMoneyForCompare label ≠ [])
    (hmatch : normalizeMoneyForCompare predicted = normalizeMoneyForCompare label)
    (hsolid : predicted ≠ [] → strip predicted ≠ []) :
    normalizeMoneyForCompare (kept txt predicted label fn) = normalizeMoneyForCompare label := by
  unfold kept
  split
  · have hne : predicted ≠ [] := by
      intro hnil
      rw [← hmatch, hnil] at hlabel
      exact hlabel rfl
    rw [← hmatch]
    unfold normalizeMoneyForCompare
    rw [if_neg (hsolid hne), if_neg hne]
    have hdecimals : (strip predicted).filter isDecimal = predicted.filter isDecimal := decimals_strip
    rw [hdecimals]
  · rfl

/-- A name that is worth something is the label's, and right. -/
theorem name_kept (hratio : ∀ s, txt.ratio s s = 1) (hlower : txt.lower [] = []) {predicted label : Str}
    (hlabel : txt.lower (strip label) ≠ [])
    (hmatch : txt.lower (strip predicted) = txt.lower (strip label)) :
    kept txt predicted label "product_name" = label := by
  refine if_neg fun hwrong => ?_
  unfold compareField at hwrong
  split at hwrong
  · cases hwrong
  · have hne : predicted ≠ [] := by
      intro hnil
      rw [← hmatch, hnil] at hlabel
      exact hlabel hlower
    have hagree : agree txt (txt.lower (strip predicted)) (txt.lower (strip label)) "product_name" =
        decide (95 / 100 < txt.ratio (txt.lower (strip predicted)) (txt.lower (strip label))) := rfl
    rw [if_neg hne, hagree, hmatch, hratio] at hwrong
    exact absurd hwrong (by decide +kernel)

/-- **A line keeps what it is worth**: whatever aligned it, a price, a total or a name, is in its
    reconstruction as well, unless it fades. -/
theorem rebuilt_worth (hratio : ∀ s, txt.ratio s s = 1) (hlower : txt.lower [] = []) {i : Nat}
    (hsolid : ¬ Faded txt pred gt i) (hpos : 0 < score txt (labelLine gt i) (predLine txt pred gt i)) :
    0 < score txt (labelLine gt i) (rebuiltLine txt pred gt i) := by
  have hstays : ∀ fn ∈ ["product_unit_price", "product_total_money"],
      (predLine txt pred gt i).get fn ≠ [] → strip ((predLine txt pred gt i).get fn) ≠ [] :=
    fun fn hfn hne hblank => hsolid ⟨fn, hfn, hne, hblank⟩
  have hprice : ∀ {fn : String}, fn ∈ ["product_unit_price", "product_total_money"] →
      normalizeMoneyForCompare ((labelLine gt i).get fn) ≠ [] ∧
        normalizeMoneyForCompare ((predLine txt pred gt i).get fn) =
          normalizeMoneyForCompare ((labelLine gt i).get fn) →
      normalizeMoneyForCompare ((labelLine gt i).get fn) ≠ [] ∧
        normalizeMoneyForCompare ((rebuiltLine txt pred gt i).get fn) =
          normalizeMoneyForCompare ((labelLine gt i).get fn) := by
    intro fn hfn h
    have hfield : fn ∈ productFields := by
      rcases List.mem_pair.mp hfn with rfl | rfl <;> decide
    rw [get_rebuiltLine i hfield]
    exact ⟨h.1, money_kept h.1 h.2 (hstays fn hfn)⟩
  unfold score at hpos ⊢
  dsimp only at hpos ⊢
  by_cases hunit : normalizeMoneyForCompare ((labelLine gt i).get "product_unit_price") ≠ [] ∧
      normalizeMoneyForCompare ((predLine txt pred gt i).get "product_unit_price") =
        normalizeMoneyForCompare ((labelLine gt i).get "product_unit_price")
  · rw [if_pos (hprice List.mem_cons_self hunit)]
    omega
  by_cases htotal : normalizeMoneyForCompare ((labelLine gt i).get "product_total_money") ≠ [] ∧
      normalizeMoneyForCompare ((predLine txt pred gt i).get "product_total_money") =
        normalizeMoneyForCompare ((labelLine gt i).get "product_total_money")
  · rw [if_pos (hprice (List.mem_cons_of_mem _ List.mem_cons_self) htotal)]
    omega
  rw [if_neg hunit, if_neg htotal] at hpos
  by_cases hname : txt.lower (strip ((labelLine gt i).get "product_name")) ≠ [] ∧
      txt.lower (strip ((predLine txt pred gt i).get "product_name")) =
        txt.lower (strip ((labelLine gt i).get "product_name"))
  · have hkept : (rebuiltLine txt pred gt i).get "product_name" = (labelLine gt i).get "product_name" := by
      rw [get_rebuiltLine i (by decide)]
      exact name_kept hratio hlower hname.1 hname.2
    have hsame : txt.lower (strip ((labelLine gt i).get "product_name")) ≠ [] ∧
        txt.lower (strip ((rebuiltLine txt pred gt i).get "product_name")) =
          txt.lower (strip ((labelLine gt i).get "product_name")) := ⟨hname.1, by rw [hkept]⟩
    rw [if_pos hsame]
    omega
  · rw [if_neg hname] at hpos
    exact absurd hpos (lt_irrefl 0)

/-- What is put together of nothing is nothing, and is worth nothing. -/
theorem score_rebuilt_nothing (hlower : txt.lower [] = []) {i : Nat} (h : predLine txt pred gt i = [])
    (g : Fields) : score txt g (rebuiltLine txt pred gt i) = 0 := by
  have hget : ∀ fn ∈ productFields, (rebuiltLine txt pred gt i).get fn = [] := by
    intro fn hfn
    rw [get_rebuiltLine i hfn, h]
    show kept txt [] _ fn = []
    unfold kept compareField
    by_cases hlabel : (labelLine gt i).get fn = []
    · rw [if_pos hlabel, if_neg nofun, hlabel]
    · rw [if_neg hlabel, if_pos rfl, if_pos rfl]
      rfl
  have hstrip : strip [] = [] := rfl
  have hmoney : normalizeMoneyForCompare [] = [] := rfl
  have hterm : ∀ (y : Str) (k : Nat), (if y ≠ [] ∧ [] = y then k else 0) = 0 := fun y k =>
    if_neg fun hy => hy.1 hy.2.symm
  unfold score
  rw [hget "product_unit_price" (by decide), hget "product_total_money" (by decide),
    hget "product_name" (by decide), hstrip, hmoney, hlower]
  simp only [hterm]

/-- **A line whose own reconstruction scores nothing has nothing to lose**: unless it has faded, it was
    aligned with nothing. -/
theorem Realigns.lost (hratio : ∀ s, txt.ratio s s = 1) (hlower : txt.lower [] = [])
    (h : Realigns txt pred gt) {i : Nat} (hi : i < gt.products.length)
    (hzero : score txt (labelLine gt i) (rebuiltLine txt pred gt i) = 0) :
    (∀ fn ∈ productFields, compareField txt ((predLine txt pred gt i).get fn)
      ((labelLine gt i).get fn) fn ≠ some true) ∧
    ∀ j, i < j → j < gt.products.length →
      score txt (labelLine gt j) (rebuiltLine txt pred gt i) <
        max 1 (score txt (labelLine gt j) (rebuiltLine txt pred gt j)) := by
  by_cases hfaded : Faded txt pred gt i
  · exact h.faded i hi hfaded hzero
  · rcases predLine_worth hi with hnothing | hpos
    · refine ⟨fun fn _ => ?_, fun j _ _ => ?_⟩
      · rw [hnothing]
        show compareField txt [] _ fn ≠ some true
        unfold compareField
        split
        · exact nofun
        · rw [if_pos rfl]
          exact nofun
      · rw [score_rebuilt_nothing hlower hnothing]
        exact Nat.lt_of_lt_of_le Nat.one_pos (Nat.le_max_left 1 _)
    · exact absurd hzero (Nat.pos_iff_ne_zero.mp (rebuilt_worth hratio hlower hfaded hpos))

/-- **Under the condition the matcher pairs each label line with its own reconstruction**, or with
    nothing if that scores nothing. -/
theorem align_skeleton (hratio : ∀ s, txt.ratio s s = 1) (hlower : txt.lower [] = [])
    (h : Realigns txt pred gt) :
    (Greedy.align (score txt) gt.products (skeleton txt pred gt).products).1 =
      (List.range gt.products.length).map fun i =>
        Greedy.own (score txt) (labelLine gt i, (skeleton txt pred gt).products[i]?.getD []) := by
  have hlength : (skeleton txt pred gt).products.length = gt.products.length := length_skeleton
  have hscore : ∀ i < gt.products.length, ∀ g,
      score txt g ((skeleton txt pred gt).products[i]?.getD []) =
        score txt g (rebuiltLine txt pred gt i) := fun i hi g =>
    score_congr fun fn hfn => get_skeletonLine hi hfn
  have hindex : ∀ (l : List Fields), (List.range l.length).map (fun i => l[i]?.getD []) = l := by
    intro l
    refine List.ext_getElem (by simp) fun i h₁ h₂ => ?_
    simp [List.getElem?_eq_getElem h₂]
  have hown := @Greedy.align_own_ordered _ _ (score txt) ((List.range gt.products.length).map
    fun i => (labelLine gt i, (skeleton txt pred gt).products[i]?.getD [])) ?_ ?_
  · rw [List.map_map, List.map_map, List.map_map] at hown
    have hfst : (List.range gt.products.length).map (fun i => labelLine gt i) = gt.products :=
      hindex gt.products
    have hsnd : (List.range gt.products.length).map
        (fun i => (skeleton txt pred gt).products[i]?.getD []) = (skeleton txt pred gt).products := by
      rw [← hlength]
      exact hindex _
    have hparts := hown
    simp only [Function.comp_def, hfst, hsnd] at hparts
    exact hparts
  · rw [List.pairwise_map]
    refine List.pairwise_lt_range.imp_of_mem fun hi hj hlt => ?_
    rw [List.mem_range] at hi hj
    rw [hscore _ hi, hscore _ hj]
    exact h.later _ _ hlt hj
  · rw [List.pairwise_map]
    refine List.pairwise_lt_range.imp_of_mem fun hi hj hlt hzero => ?_
    rw [List.mem_range] at hi hj
    rw [hscore _ hi] at hzero ⊢
    rw [hscore _ hj]
    exact (h.lost hratio hlower hi hzero).2 _ hlt hj

/-- **The verdicts of a line** are those of the prediction. -/
theorem compare_line (hratio : ∀ s, txt.ratio s s = 1) (hlower : txt.lower [] = [])
    (h : Realigns txt pred gt) {i : Nat} (hi : i < gt.products.length) {fn : String}
    (hfn : fn ∈ productFields) :
    compareField txt ((predLine txt (skeleton txt pred gt) gt i).get fn) ((labelLine gt i).get fn) fn =
      compareField txt ((predLine txt pred gt i).get fn) ((labelLine gt i).get fn) fn := by
  have halign := align_skeleton hratio hlower h
  have hline : predLine txt (skeleton txt pred gt) gt i = (Greedy.own (score txt)
      (labelLine gt i, (skeleton txt pred gt).products[i]?.getD [])).getD [] := by
    unfold predLine
    rw [alignedPred_getElem? hi (by rw [halign, List.length_map, List.length_range]), halign,
      List.getElem?_map, List.getElem?_range hi]
    rfl
  have hscore : score txt (labelLine gt i) ((skeleton txt pred gt).products[i]?.getD []) =
      score txt (labelLine gt i) (rebuiltLine txt pred gt i) :=
    score_congr fun fn hfn => get_skeletonLine hi hfn
  rw [hline]
  unfold Greedy.own
  simp only [hscore]
  by_cases hpos : 0 < score txt (labelLine gt i) (rebuiltLine txt pred gt i)
  · rw [if_pos hpos, Option.getD_some, get_skeletonLine hi hfn, get_rebuiltLine i hfn]
    exact compare_kept hratio _ _ _
  · rw [if_neg hpos]
    exact compare_nothing ((h.lost hratio hlower hi (Nat.eq_zero_of_not_pos hpos)).1 fn hfn)

theorem flatMap_range_max {α : Type} {n k : Nat} {f : Nat → List α} (h : ∀ i, n ≤ i → f i = []) :
    (List.range (max n k)).flatMap f = (List.range n).flatMap f := by
  obtain ⟨d, hd⟩ := Nat.exists_eq_add_of_le (Nat.le_max_left n k)
  have hrest : ((List.range d).map fun i => n + i).flatMap f = [] := by
    rw [List.flatMap_eq_nil_iff]
    intro i hi
    obtain ⟨j, _, rfl⟩ := List.mem_map.mp hi
    exact h _ (Nat.le_add_right n j)
  rw [hd, List.range_add, List.flatMap_append, hrest, List.append_nil]

/-- The verdicts of an evaluation: those of the base fields, and those of each label line. -/
theorem verdicts_eq (pred gt : EvalRecord) (fn : String) :
    (evaluateSingle txt pred gt).verdicts fn =
      baseFields.filterMap (fun f => verdictOf txt fn (baseComparison pred gt f)) ++
      (List.range gt.products.length).flatMap fun i =>
        productFields.filterMap fun f => verdictOf txt fn (lineComparison txt pred gt i f) := by
  rw [verdicts_evaluateSingle]
  unfold comparisons
  simp only
  rw [List.filterMap_append, baseComparisons_eq, List.filterMap_map, List.filterMap_flatMap]
  congr 1
  have hlines : ∀ i, (productComparison (alignedPred txt gt.products pred.products) gt.products
      i).filterMap (verdictOf txt fn) =
        productFields.filterMap fun f => verdictOf txt fn (lineComparison txt pred gt i f) := by
    intro i
    rw [productComparison_eq, List.filterMap_map]
    rfl
  simp only [hlines]
  refine flatMap_range_max fun i hi => List.filterMap_eq_nil_iff.mpr fun f _ => ?_
  -- there is no label left to compare with
  have hnothing : (lineComparison txt pred gt i f).gt = [] := by
    show (gt.products[i]?.getD []).get f = []
    rw [List.getElem?_eq_none hi]
    rfl
  unfold verdictOf
  rw [hnothing]
  simp [compareField]

/-- **The reconstruction gets the verdicts of the prediction**, field by field and in their order. -/
theorem skeleton_verdicts (hratio : ∀ s, txt.ratio s s = 1) (hlower : txt.lower [] = [])
    (h : Realigns txt pred gt) (fn : String) :
    (rescored txt pred gt).verdicts fn = (evaluateSingle txt pred gt).verdicts fn := by
  show (evaluateSingle txt (skeleton txt pred gt) gt).verdicts fn = _
  rw [verdicts_eq, verdicts_eq]
  congr 1
  · refine List.filterMap_congr fun f hf => ?_
    have hcompare : compareField txt ((skeleton txt pred gt).fields.get f) (gt.fields.get f) f =
        compareField txt (pred.fields.get f) (gt.fields.get f) f := by
      rw [get_skeleton hf]
      exact compare_kept hratio _ _ _
    unfold verdictOf baseComparison
    simp only [hcompare]
  · refine List.flatMap_congr fun i hi => List.filterMap_congr fun f hf => ?_
    have hcompare := compare_line hratio hlower h (List.mem_range.mp hi) hf
    unfold verdictOf lineComparison
    simp only [hcompare]

/-- **The report is the accuracy of the prediction** wherever every label line gets its own
    reconstruction back. -/
theorem report_accurate (hratio : ∀ s, txt.ratio s s = 1) (hlower : txt.lower [] = [])
    (h : Realigns txt pred gt) : SameAccuracy txt pred gt := fun fn => by
  rw [skeleton_verdicts hratio hlower h fn]
  exact ⟨rfl, rfl⟩

end Verdicts

end Eval

open Eval

namespace Sample

/-- A ratio that counts the places in which two texts agree, as `difflib` does where one character
    is exchanged. -/
def placewise (a b : Str) : Rat :=
  if a = b then 1 else 2 * ((a.zip b).countP fun x => x.1 = x.2 : Nat) / (a.length + b.length : Nat)

def similar : Texts := { texts with ratio := placewise }

/-- A name of 40 characters, and one that differs in the last of them. -/
def longName : Str := List.replicate 39 'a' ++ ['b']

def misread : Str := List.replicate 39 'a' ++ ['c']

def line (name price : Str) : Fields :=
  [("product_name".toList, name), ("product_unit_price".toList, price)]

/-- A label with the same product at two prices, and a prediction of it. -/
def twoPrices : EvalRecord := ⟨[], [line longName ['1', '0'], line longName ['2', '0']]⟩

def predicted : EvalRecord := ⟨[], [line ['x'] ['1', '0'], line misread ['2', '0']]⟩

/-- A prediction that has the names as they are, and one wrong price. -/
def wrongPrice : EvalRecord := ⟨[], [line longName ['1', '0'], line longName ['2', '5']]⟩

theorem similar_self (s : Str) : similar.ratio s s = 1 := if_pos rfl

theorem realigns_wrongPrice : Realigns similar wrongPrice twoPrices where
  later i j hij hj := by
    have hlength : twoPrices.products.length = 2 := rfl
    obtain ⟨rfl, rfl⟩ : i = 0 ∧ j = 1 := by omega
    decide +kernel
  faded i hi _ hzero := by
    have hlength : twoPrices.products.length = 2 := rfl
    rcases (show i = 0 ∨ i = 1 by omega) with rfl | rfl
    · exact absurd hzero (by decide +kernel)
    · exact absurd hzero (by decide +kernel)

end Sample

theorem report_accurate_wrongPrice : SameAccuracy Sample.similar Sample.wrongPrice Sample.twoPrices :=
  report_accurate Sample.similar_self rfl Sample.realigns_wrongPrice

namespace Sample

/-- A free item, and a prediction that has a blank for its price. -/
def freeItem : EvalRecord :=
  ⟨[], [[("product_id".toList, ['7']), ("product_unit_price".toList, "free".toList)]]⟩

def blankPrice : EvalRecord :=
  ⟨[], [[("product_id".toList, ['7']), ("product_unit_price".toList, [' '])]]⟩

end Sample

/-- A blank and `free` are both a zero to the matcher; the blank is stripped, and the line is lost. -/
example : (evaluateSingle Sample.texts Sample.blankPrice Sample.freeItem).verdicts "product_id" = [true] ∧
    (rescored Sample.texts Sample.blankPrice Sample.freeItem).verdicts "product_id" = [false] := by
  decide +kernel

/-- **A name that is right but for one character moves the lines about**: it is put together as the
    label's name, which another line of that name prefers to its own reconstruction. -/
theorem skeleton_realigned :
    ¬ ∀ txt : Texts, (∀ s, txt.ratio s s = 1) → txt.lower [] = [] →
      ∀ pred gt : EvalRecord, SameAccuracy txt pred gt := by
  intro h
  have hprices := (h Sample.similar Sample.similar_self rfl Sample.predicted Sample.twoPrices
    "product_unit_price").2
  revert hprices
  decide +kernel

end InvoiceOcr
