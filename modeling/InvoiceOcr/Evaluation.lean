/-
  File:      InvoiceOcr/Evaluation.lean
  Subject:   THE EVALUATION SCRIPT (scripts/run_eval.py), and what it makes of a perfect extraction.

  * `normalizeLabelRecord`, `compareField`, `evaluateSingle` -- as the script has them; records are
    dicts of texts;
  * `Stable` -- the labels that the pipeline's normalizers and the script's comparison treat alike;
  * **`evaluation_perfect`** -- a stable label copied by the extraction scores without a mismatch; one
    that scores so has stable base fields, and no product without price, total and name has any other;
  * `date_mismatch` -- a label dated 30-08-2024.
-/
import InvoiceOcr.Lists.Greedy
import InvoiceOcr.Money

namespace InvoiceOcr

open PyJson PyText

/-! ## 1. The script -/

namespace Eval

/-- A dict of texts. -/
abbrev Fields := List (Str × Str)

/-- `d.get(k, default)`. -/
def Fields.get (d : Fields) (k : String) (default : Str := []) : Str :=
  (d.lookup k.toList).getD default

/-- A record: its text fields and its `products`. -/
structure EvalRecord where
  fields : Fields
  products : List Fields

/-- One product of `_normalize_label_record`. -/
def normalizeLabelProduct (p : Fields) : Fields :=
  [("product_id".toList, p.get "product_id" (p.get "product_code")),
   ("product_name".toList, p.get "product_name"),
   ("product_unit_price".toList, p.get "product_unit_price"),
   ("product_quantity".toList, p.get "product_quantity" (p.get "product_amount")),
   ("product_total_money".toList, p.get "product_total_money")]

/-- `_normalize_label_record`. -/
def normalizeLabelRecord (record : EvalRecord) : EvalRecord where
  fields :=
    [("name".toList, record.fields.get "name"),
     ("type".toList, record.fields.get "type"),
     ("date".toList, record.fields.get "date"),
     ("time".toList, record.fields.get "time"),
     ("pos_id".toList, record.fields.get "pos_id"),
     ("receipt_number".toList, record.fields.get "receipt_number"),
     ("cashier".toList, record.fields.get "cashier"),
     ("total_money".toList, record.fields.get "total_money"),
     ("barcode".toList, record.fields.get "barcode")]
  products := record.products.map normalizeLabelProduct

/-- `_normalize_money_for_compare`. -/
def normalizeMoneyForCompare (value : Str) : Str :=
  if value = [] then []
  else
    let v := (value.filter isDecimal).dropWhile isZero
    if v = [] then ['0'] else v

section Compare

variable (txt : Texts)

/-- `[^\d.,]` is what does not pass. -/
def isQuantityChar (c : Char) : Bool := isDecimal c || c = '.' || c = ','

/-- `_normalize_quantity` of the script. -/
def normalizeQuantity (q : Str) : Str :=
  if q = [] then []
  else
    let q := txt.lower (strip q)
    let q := q.filter isQuantityChar
    let q := commasAsPoints q
    match parseFloat q with
    | some x => ((reprFloat x).rdropWhile isZero).rdropWhile fun c => c = '.'
    | none => q

/-- The fields that are compared as money. -/
def moneyFields : List String := ["total_money", "product_unit_price", "product_total_money"]

/-- The last lines of `compare_field`. -/
def agree (pred gt : Str) (fieldName : String) : Bool :=
  if fieldName ∈ moneyFields then
    normalizeMoneyForCompare pred = normalizeMoneyForCompare gt
  else if fieldName = "barcode" then
    pred.filter (· ≠ '*') = gt.filter (· ≠ '*')
  else if fieldName = "product_quantity" then
    normalizeQuantity txt pred = normalizeQuantity txt gt
  else if fieldName = "product_name" then 95 / 100 < txt.ratio pred gt
  else pred = gt

/-- `compare_field`; `none` where there is nothing to compare with. -/
def compareField (pred gt : Str) (fieldName : String) : Option Bool :=
  if gt = [] then none
  else if pred = [] then some false
  else some (agree txt (txt.lower (strip pred)) (txt.lower (strip gt)) fieldName)

/-- A mismatch that is reported. -/
structure Mismatch where
  field : Str
  expected : Str
  predicted : Str
  deriving DecidableEq, Repr

/-- `results` and `mismatches`. -/
structure Scores where
  results : List (String × List Bool) := []
  mismatches : List Mismatch := []

/-- `results.setdefault(fn, []).append(val)`. -/
def append (results : List (String × List Bool)) (fn : String) (val : Bool) :
    List (String × List Bool) :=
  match results with
  | [] => [(fn, [val])]
  | (fn', vals) :: results =>
    if fn' = fn then (fn, vals ++ [val]) :: results else (fn', vals) :: append results fn val

/-- One comparison: the name it is reported under, the field, and its two values. -/
structure Comparison where
  label : Str
  fieldName : String
  pred : Str
  gt : Str

/-- What one comparison adds. -/
def Scores.add (s : Scores) (x : Comparison) : Scores :=
  match compareField txt x.pred x.gt x.fieldName with
  | none => s
  | some val =>
    { results := append s.results x.fieldName val
      mismatches :=
        if val then s.mismatches else s.mismatches ++ [⟨x.label, strip x.gt, strip x.pred⟩] }

def baseFields : List String :=
  ["name", "type", "date", "time", "pos_id", "receipt_number", "cashier", "total_money", "barcode"]

def productFields : List String :=
  ["product_id", "product_name", "product_unit_price", "product_quantity", "product_total_money"]

/-- The score of a predicted product for a labelled one. -/
def score (gtP pp : Fields) : Nat :=
  let gtPrice := normalizeMoneyForCompare (gtP.get "product_unit_price")
  let gtTotal := normalizeMoneyForCompare (gtP.get "product_total_money")
  let gtName := txt.lower (strip (gtP.get "product_name"))
  (if gtPrice ≠ [] ∧ normalizeMoneyForCompare (pp.get "product_unit_price") = gtPrice then 2 else 0) +
    (if gtTotal ≠ [] ∧ normalizeMoneyForCompare (pp.get "product_total_money") = gtTotal then 2
      else 0) +
    (if gtName ≠ [] ∧ txt.lower (strip (pp.get "product_name")) = gtName then 3 else 0)

/-- `aligned_pred`: one product, or an empty dict, for each labelled one, and then the others. -/
def alignedPred (gtProducts preds : List Fields) : List Fields :=
  let (aligned, used) := Greedy.align (score txt) gtProducts preds
  aligned.map (fun p => p.getD []) ++ Greedy.rest used preds

/-- The comparisons of the base fields. -/
def baseComparisons (pred gt : EvalRecord) : List Comparison :=
  baseFields.map fun fn => ⟨fn.toList, fn, pred.fields.get fn, gt.fields.get fn⟩

/-- The comparisons of product `i`. -/
def productComparison (aligned gtProducts : List Fields) (i : Nat) : List Comparison :=
  let gtP := gtProducts[i]?.getD []
  let predP := aligned[i]?.getD []
  productFields.map fun fn =>
    ⟨"product[".toList ++ natStr i ++ "].".toList ++ fn.toList, fn, predP.get fn, gtP.get fn⟩

/-- `evaluate_single`. -/
def evaluateSingle (pred gt : EvalRecord) : Scores :=
  let base := (baseComparisons pred gt).foldl (Scores.add txt) {}
  let aligned := alignedPred txt gt.products pred.products
  ((List.range (max gt.products.length aligned.length)).flatMap
    (productComparison aligned gt.products)).foldl (Scores.add txt) base

end Compare

/-! ## 2. A perfect extraction -/

/-- `product.model_dump()`, its values as texts. -/
def dumpProduct (p : Product) : Fields :=
  [("product_id".toList, p.productId),
   ("product_name".toList, p.productName),
   ("product_unit_price".toList, p.productUnitPrice),
   ("product_quantity".toList, p.productQuantity),
   ("product_discount_money".toList, p.productDiscountMoney),
   ("product_total_money".toList, p.productTotalMoney)]

/-- `invoice.model_dump()`, its values as texts. -/
def dump (r : InvoiceResult) : EvalRecord where
  fields :=
    [("name".toList, r.name), ("type".toList, r.type), ("date".toList, r.date), ("time".toList, r.time),
     ("pos_id".toList, r.posId), ("receipt_number".toList, r.receiptNumber),
     ("cashier".toList, r.cashier), ("total_money".toList, r.totalMoney), ("barcode".toList, r.barcode)]
  products := r.products.map dumpProduct

/-- A product copied from a label. -/
def copyProduct (p : Fields) : Product where
  productId := p.get "product_id"
  productName := p.get "product_name"
  productUnitPrice := p.get "product_unit_price"
  productQuantity := p.get "product_quantity"
  productTotalMoney := p.get "product_total_money"

/-- The invoice copied from a label. -/
def copyOf (gt : EvalRecord) : InvoiceResult where
  name := gt.fields.get "name"
  type := gt.fields.get "type"
  date := gt.fields.get "date"
  time := gt.fields.get "time"
  posId := gt.fields.get "pos_id"
  receiptNumber := gt.fields.get "receipt_number"
  cashier := gt.fields.get "cashier"
  totalMoney := gt.fields.get "total_money"
  barcode := gt.fields.get "barcode"
  products := gt.products.map copyProduct

/-- The index without names. -/
def emptyIndex : WhitelistIndex := ⟨fun _ => {}⟩

/-- **The copied label is postprocessed and scores without a mismatch.** -/
def Perfect (txt : Texts) (gt : EvalRecord) : Prop :=
  ∃ final, postprocess txt emptyIndex (copyOf gt) = .ok final ∧
    (evaluateSingle txt (dump final) gt).mismatches = []

/-! ## 3. Stable labels -/

/-- Decimals and the punctuation of numbers and dates. -/
def isMark (c : Char) : Bool := isDecimal c || c = '.' || c = ',' || c = '-' || c = '/'

/-- What holds of `lower` and `ratio`: lower case is lower case, it concerns no whitespace and no
    marks; equal texts have ratio 1. -/
structure TextLaws (txt : Texts) : Prop where
  lower_lower : ∀ s, txt.lower (txt.lower s) = txt.lower s
  strip_lower : ∀ s, strip (txt.lower s) = txt.lower (strip s)
  lower_nil : ∀ s, txt.lower s = [] ↔ s = []
  lower_marks : ∀ s, (txt.lower s).filter isMark = s.filter isMark
  ratio_self : ∀ s, txt.ratio s s = 1

/-- A date the normalizer rewrites: `DD-MM-YYYY`, `DD.MM.YYYY`, `YYYY-MM-DD`. -/
def isOtherDate : Str → Bool
  | [a, b, p, c, d, q, e, f, g, h] =>
    decide (((p = '-' ∧ q = '-') ∨ (p = '.' ∧ q = '.')) ∧ twoDecimals a b ∧ twoDecimals c d ∧
      twoDecimals e f ∧ twoDecimals g h) ||
    decide (d = '-' ∧ f = '-' ∧ twoDecimals a b ∧ twoDecimals p c ∧ twoDecimals q e ∧ twoDecimals g h)
  | _ => false

section Stability

variable (txt : Texts)

/-- Something is left of the text, and NFC changes its case at most. -/
def SameText (x : Str) : Prop :=
  x ≠ [] → normalize txt x ≠ [] ∧ txt.lower (normalize txt x) = txt.lower (strip x)

/-- The same, asterisks apart. -/
def SameBarcode (x : Str) : Prop :=
  x ≠ [] → normalize txt x ≠ [] ∧ (txt.lower (normalize txt x)).filter (· ≠ '*') =
    (txt.lower (strip x)).filter (· ≠ '*')

/-- Something is left of the text. -/
def NotBlank (x : Str) : Prop := x ≠ [] → strip x ≠ []

/-- Something is left of the text, and it is no date in another format. -/
def KeptDate (x : Str) : Prop := x ≠ [] → strip x ≠ [] ∧ isOtherDate (strip x) = false

/-- There is a digit. -/
def HasDigit (x : Str) : Prop := x ≠ [] → ∃ c ∈ x, isDecimal c = true

/-- The quantity is normalized to something that the script reads as it reads the label. -/
def SameQuantity (x : Str) : Prop :=
  ∃ text, InvoiceOcr.normalizeQuantity x = .ok text ∧
    (x ≠ [] → text ≠ [] ∧
      normalizeQuantity txt (txt.lower (strip text)) = normalizeQuantity txt (txt.lower (strip x)))

/-- The base fields the normalizers and the comparison treat alike. -/
structure BaseStable (gt : EvalRecord) : Prop where
  name : SameText txt (gt.fields.get "name")
  type : NotBlank (gt.fields.get "type")
  date : KeptDate (gt.fields.get "date")
  time : NotBlank (gt.fields.get "time")
  posId : SameText txt (gt.fields.get "pos_id")
  receiptNumber : SameText txt (gt.fields.get "receipt_number")
  cashier : SameText txt (gt.fields.get "cashier")
  totalMoney : HasDigit (gt.fields.get "total_money")
  barcode : SameBarcode txt (gt.fields.get "barcode")

/-- A product that is aligned by nothing has nothing to compare. -/
def Keyed (p : Fields) : Prop :=
  p.get "product_unit_price" = [] → p.get "product_total_money" = [] →
    strip (p.get "product_name") = [] → p.get "product_id" = [] ∧ p.get "product_quantity" = []

/-- The products they treat alike. -/
structure ProductStable (p : Fields) : Prop where
  id : SameText txt (p.get "product_id")
  name : SameText txt (p.get "product_name")
  unitPrice : HasDigit (p.get "product_unit_price")
  quantity : SameQuantity txt (p.get "product_quantity")
  totalMoney : HasDigit (p.get "product_total_money")
  keyed : Keyed p

/-- **A label the pipeline and the script treat alike.** -/
structure Stable (gt : EvalRecord) : Prop where
  base : BaseStable txt gt
  products : ∀ p ∈ gt.products, ProductStable txt p

end Stability

/-! ## 4. Fields -/

section FieldLemmas

variable {txt : Texts} {x pred gt : Str} {fn : String}

theorem compareField_ne_false : compareField txt pred gt fn ≠ some false ↔
    (gt ≠ [] → pred ≠ [] ∧ agree txt (txt.lower (strip pred)) (txt.lower (strip gt)) fn = true) := by
  unfold compareField
  by_cases hgt : gt = []
  · rw [if_pos hgt]
    exact ⟨fun _ hne => absurd hgt hne, fun _ h => by simp at h⟩
  · rw [if_neg hgt]
    by_cases hpred : pred = []
    · rw [if_pos hpred]
      exact ⟨fun h => absurd rfl h, fun h => absurd hpred (h hgt).1⟩
    · rw [if_neg hpred]
      cases agree txt (txt.lower (strip pred)) (txt.lower (strip gt)) fn with
      | true => exact ⟨fun _ _ => ⟨hpred, rfl⟩, fun _ h => by simp at h⟩
      | false => exact ⟨fun h => absurd rfl h, fun h => by cases (h hgt).2⟩

theorem strip_normalize : strip (normalize txt x) = normalize txt x := strip_strip

theorem normalizeUnicode_of_ne (h : x ≠ []) : normalizeUnicode txt x = normalize txt x := if_neg h

/-- A field that is compared as it is. -/
theorem compare_text (hfn : ∀ p g, agree txt p g fn = decide (p = g)) :
    compareField txt (normalizeUnicode txt x) x fn ≠ some false ↔ SameText txt x := by
  rw [compareField_ne_false]
  refine forall_congr' fun hx => ?_
  rw [normalizeUnicode_of_ne hx, strip_normalize, hfn, decide_eq_true_iff]

theorem compare_barcode : compareField txt (normalizeUnicode txt x) x "barcode" ≠ some false ↔
    SameBarcode txt x := by
  rw [compareField_ne_false]
  refine forall_congr' fun hx => ?_
  have hfn : ∀ p g : Str, agree txt p g "barcode" =
      decide (p.filter (· ≠ '*') = g.filter (· ≠ '*')) := fun _ _ => rfl
  rw [normalizeUnicode_of_ne hx, strip_normalize, hfn, decide_eq_true_iff]

theorem compare_time : compareField txt (normalizeTime x) x "time" ≠ some false ↔ NotBlank x := by
  rw [compareField_ne_false]
  refine forall_congr' fun hx => ?_
  have hfn : ∀ p g : Str, agree txt p g "time" = decide (p = g) := fun _ _ => rfl
  unfold normalizeTime
  rw [if_neg hx, strip_strip, hfn, decide_eq_true_iff]
  exact and_iff_left rfl

theorem compare_type (hlaws : TextLaws txt) :
    compareField txt (if x = [] then [] else txt.lower (strip x)) x "type" ≠ some false ↔
      NotBlank x := by
  rw [compareField_ne_false]
  refine forall_congr' fun hx => ?_
  have hfn : ∀ p g : Str, agree txt p g "type" = decide (p = g) := fun _ _ => rfl
  rw [if_neg hx, hlaws.strip_lower, strip_strip, hlaws.lower_lower, hfn, decide_eq_true_iff]
  rw [Ne, hlaws.lower_nil]
  exact and_iff_left rfl

theorem mark_of_decimal {c : Char} (h : isDecimal c = true) : isMark c = true := by
  unfold isMark
  rw [h]
  rfl

theorem not_space_of_mark {c : Char} (h : isMark c = true) : PyText.isSpace c = false := by
  unfold isMark at h
  simp only [Bool.or_eq_true, decide_eq_true_eq] at h
  rcases h with (((h | rfl) | rfl) | rfl) | rfl
  · exact not_isSpace_of_isDecimal h
  · decide
  · decide
  · decide
  · decide

/-- Marks are not stripped. -/
theorem strip_marks (h : ∀ c ∈ x, isMark c = true) : strip x = x :=
  stripBy_eq_self (fun c hc => not_space_of_mark (h c (List.mem_of_head? hc)))
    fun c hc => not_space_of_mark (h c (List.mem_of_getLast? hc))

/-- Marks are recovered from their lower case. -/
theorem marks_of_lower (hlaws : TextLaws txt) {y : Str} (hx : ∀ c ∈ x, isMark c = true)
    (hy : ∀ c ∈ y, isMark c = true) (h : txt.lower x = txt.lower y) : x = y := by
  have hmarks := hlaws.lower_marks x
  rw [h, hlaws.lower_marks, List.filter_eq_self.mpr hx, List.filter_eq_self.mpr hy] at hmarks
  exact hmarks.symm

theorem reformatDate_kept (h : isOtherDate x = false) : reformatDate x = x := by
  unfold reformatDate
  unfold isOtherDate at h
  split
  · simp only [Bool.or_eq_false_iff, decide_eq_false_iff_not] at h
    obtain ⟨hday, hyear⟩ := h
    split
    · rfl
    · split
      · next hdash => exact absurd ⟨Or.inl ⟨hdash.1, hdash.2.1⟩, hdash.2.2⟩ hday
      · split
        · next hpoint => exact absurd ⟨Or.inr ⟨hpoint.1, hpoint.2.1⟩, hpoint.2.2⟩ hday
        · rfl
  · rfl

theorem twoDecimals_iff {a b : Char} :
    twoDecimals a b = true ↔ isDecimal a = true ∧ isDecimal b = true := Bool.and_eq_true_iff

theorem marks_of_isOtherDate (h : isOtherDate x = true) : ∀ c ∈ x, isMark c = true := by
  have hsep : isMark '-' = true ∧ isMark '.' = true := by decide
  have hmark : ∀ c, isDecimal c = true → isMark c = true := fun _ => mark_of_decimal
  unfold isOtherDate at h
  split at h
  · simp only [Bool.or_eq_true, decide_eq_true_eq, twoDecimals_iff] at h
    rcases h with ⟨⟨rfl, rfl⟩ | ⟨rfl, rfl⟩, hdigits⟩ | ⟨rfl, rfl, hdigits⟩
    all_goals simp [hsep, hmark, hdigits]
  · simp at h

/-- What a date is rewritten to has its characters and slashes. -/
theorem marks_reformatDate (h : ∀ c ∈ x, isMark c = true) : ∀ c ∈ reformatDate x, isMark c = true := by
  have hslash : isMark '/' = true := by decide
  unfold reformatDate
  split
  · have hall := h
    simp only [List.forall_mem_cons] at hall
    split
    · exact h
    · split
      · simp [hall, hslash]
      · split
        · simp [hall, hslash]
        · split
          · simp [hall, hslash]
          · exact h
  · exact h

/-- A date that is rewritten differs from what it is rewritten to at its third character. -/
theorem reformatDate_ne (h : isOtherDate x = true) : reformatDate x ≠ x := by
  unfold isOtherDate at h
  split at h
  · next a b p c d q e f g k =>
    simp only [Bool.or_eq_true, decide_eq_true_eq, twoDecimals_iff] at h
    rcases h with ⟨⟨rfl, rfl⟩ | ⟨rfl, rfl⟩, hdigits⟩ | ⟨rfl, rfl, hdigits⟩
    · simp [reformatDate, twoDecimals_iff, hdigits]
    · simp [reformatDate, twoDecimals_iff, hdigits]
    · -- its third character is a digit, so none of the formats before it applies
      have hnot : p ≠ '/' ∧ p ≠ '-' ∧ p ≠ '.' := by
        have hp := hdigits.2.1.1
        refine ⟨?_, ?_, ?_⟩
        all_goals
          intro heq
          rw [heq] at hp
          revert hp
          decide
      have hyear : reformatDate [a, b, p, c, '-', q, e, '-', g, k] =
          [g, k, '/', q, e, '/', a, b, p, c] := by
        simp [reformatDate, twoDecimals_iff, hnot, hdigits]
      rw [hyear]
      intro heq
      simp only [List.cons.injEq] at heq
      exact hnot.1 heq.2.2.1.symm
  · simp at h

theorem compare_date (hlaws : TextLaws txt) :
    compareField txt (normalizeDate x) x "date" ≠ some false ↔ KeptDate x := by
  rw [compareField_ne_false]
  refine forall_congr' fun hx => ?_
  have hfn : ∀ p g : Str, agree txt p g "date" = decide (p = g) := fun _ _ => rfl
  unfold normalizeDate
  rw [if_neg hx, hfn, decide_eq_true_iff]
  cases hother : isOtherDate (strip x) with
  | false =>
    rw [reformatDate_kept hother, strip_strip]
    exact ⟨fun h => ⟨h.1, rfl⟩, fun h => ⟨h.1, rfl⟩⟩
  | true =>
    have hmarks := marks_of_isOtherDate hother
    have hmarks' := marks_reformatDate hmarks
    refine ⟨fun h => ?_, fun h => by cases h.2⟩
    rw [strip_marks hmarks'] at h
    exact absurd (marks_of_lower hlaws hmarks' hmarks h.2) (reformatDate_ne hother)

theorem decimals_lower (hlaws : TextLaws txt) : decimals (txt.lower x) = decimals x := by
  have hmarks := congrArg (List.filter isDecimal) (hlaws.lower_marks x)
  rw [filter_of_imp fun _ => mark_of_decimal, filter_of_imp fun _ => mark_of_decimal] at hmarks
  exact hmarks

/-- What the money normalizer leaves. -/
theorem normalizeMoney_cases : (decimals x = [] ∧ normalizeMoney x = []) ∨
    (decimals x ≠ [] ∧ (normalizeMoney x = decimals x ∨ normalizeMoney x = '-' :: decimals x)) := by
  rw [normalizeMoney_eq]
  by_cases hnone : decimals x = []
  · exact Or.inl ⟨hnone, if_pos hnone⟩
  · rw [if_neg hnone]
    refine Or.inr ⟨hnone, ?_⟩
    split
    · exact Or.inr rfl
    · exact Or.inl rfl

/-- Amounts with the same digits are the same money. -/
theorem money_congr {y : Str} (h : decimals x = decimals y) (hne : decimals y ≠ []) :
    normalizeMoneyForCompare x = normalizeMoneyForCompare y := by
  have hx : x ≠ [] := by
    intro heq
    subst heq
    exact hne h.symm
  have hy : y ≠ [] := by
    intro heq
    subst heq
    exact hne rfl
  unfold normalizeMoneyForCompare
  rw [if_neg hx, if_neg hy]
  unfold decimals at h
  rw [h]

theorem hasDigit_iff : HasDigit x ↔ (x ≠ [] → decimals x ≠ []) := by
  refine forall_congr' fun _ => ?_
  unfold decimals
  simp only [Ne, List.filter_eq_nil_iff, not_forall, not_not, exists_prop]

theorem compare_money (hlaws : TextLaws txt)
    (hfn : ∀ p g, agree txt p g fn =
      decide (normalizeMoneyForCompare p = normalizeMoneyForCompare g)) :
    compareField txt (normalizeMoney x) x fn ≠ some false ↔ HasDigit x := by
  rw [compareField_ne_false, hasDigit_iff]
  refine forall_congr' fun hx => ?_
  rw [hfn, decide_eq_true_iff]
  rcases normalizeMoney_cases (x := x) with ⟨hnone, heq⟩ | ⟨hsome, _⟩
  · exact ⟨fun h => absurd heq h.1, fun h => absurd hnone h⟩
  · refine ⟨fun _ => hsome, fun _ => ⟨fun hnil => hsome ?_, money_congr ?_ ?_⟩⟩
    · rw [← decimals_normalizeMoney, hnil]
      rfl
    · rw [decimals_lower hlaws, decimals_lower hlaws, decimals_strip, decimals_strip,
        decimals_normalizeMoney]
    · rw [decimals_lower hlaws, decimals_strip]
      exact hsome

theorem compare_name (hlaws : TextLaws txt) (h : SameText txt x) :
    compareField txt (normalizeUnicode txt x) x "product_name" ≠ some false := by
  refine compareField_ne_false.mpr fun hx => ?_
  obtain ⟨hne, hsame⟩ := h hx
  have hfn : ∀ p g : Str, agree txt p g "product_name" = decide (95 / 100 < txt.ratio p g) :=
    fun _ _ => rfl
  rw [normalizeUnicode_of_ne hx, strip_normalize, hfn, hsame, hlaws.ratio_self]
  exact ⟨hne, by decide +kernel⟩

end FieldLemmas

/-! ## 5. What is reported -/

section Reports

variable {txt : Texts} {gt : EvalRecord}

theorem mismatches_add (s : Scores) (x : Comparison) : (s.add txt x).mismatches = [] ↔
    s.mismatches = [] ∧ compareField txt x.pred x.gt x.fieldName ≠ some false := by
  unfold Scores.add
  cases hval : compareField txt x.pred x.gt x.fieldName with
  | none => exact ⟨fun h => ⟨h, nofun⟩, fun h => h.1⟩
  | some val =>
    cases val with
    | true => exact ⟨fun h => ⟨h, nofun⟩, fun h => h.1⟩
    | false =>
      refine ⟨fun h => ?_, fun h => absurd rfl h.2⟩
      exact absurd h (List.append_ne_nil_of_right_ne_nil _ (List.cons_ne_nil _ _))

/-- **Nothing is reported as long as no comparison fails.** -/
theorem mismatches_foldl (xs : List Comparison) (s : Scores) :
    (xs.foldl (Scores.add txt) s).mismatches = [] ↔
      s.mismatches = [] ∧ ∀ x ∈ xs, compareField txt x.pred x.gt x.fieldName ≠ some false := by
  induction xs generalizing s with
  | nil => exact ⟨fun h => ⟨h, nofun⟩, fun h => h.1⟩
  | cons x xs ih => rw [List.foldl_cons, ih, mismatches_add, List.forall_mem_cons, and_assoc]

/-- The comparison of product `i` fails nowhere. -/
def ProductAgrees (txt : Texts) (predP gtP : Fields) : Prop :=
  ∀ fn ∈ productFields, compareField txt (predP.get fn) (gtP.get fn) fn ≠ some false

theorem mismatches_evaluateSingle (pred gt : EvalRecord) :
    (evaluateSingle txt pred gt).mismatches = [] ↔
      (∀ fn ∈ baseFields, compareField txt (pred.fields.get fn) (gt.fields.get fn) fn ≠ some false) ∧
        ∀ i < gt.products.length, ProductAgrees txt
          ((alignedPred txt gt.products pred.products)[i]?.getD []) (gt.products[i]?.getD []) := by
  unfold evaluateSingle
  simp only [mismatches_foldl, true_and]
  unfold baseComparisons
  rw [List.forall_mem_map]
  refine and_congr_right fun _ => ?_
  have hcomparison : ∀ i, (∀ x ∈ productComparison (alignedPred txt gt.products pred.products)
      gt.products i, compareField txt x.pred x.gt x.fieldName ≠ some false) ↔ ProductAgrees txt
        ((alignedPred txt gt.products pred.products)[i]?.getD []) (gt.products[i]?.getD []) := by
    intro i
    unfold productComparison
    exact List.forall_mem_map
  constructor
  · intro h i hi
    refine (hcomparison i).mp fun x hx => h x ?_
    exact List.mem_flatMap.mpr ⟨i, List.mem_range.mpr (by omega), hx⟩
  · intro h x hx
    obtain ⟨i, -, hx⟩ := List.mem_flatMap.mp hx
    refine (hcomparison i).mpr ?_ x hx
    by_cases hi : i < gt.products.length
    · exact h i hi
    · -- there is no label left to compare with
      rw [List.getElem?_eq_none (Nat.not_lt.mp hi)]
      exact fun fn _ => compareField_ne_false.mpr fun hne => absurd rfl hne

end Reports

/-! ## 6. The copied label, postprocessed -/

section Copied

variable {txt : Texts} {gt : EvalRecord}

theorem matchKind_empty (kind : Kind) (raw : Str) :
    matchKind txt emptyIndex kind raw = .ok (normalizeUnicode txt raw) := by
  unfold matchKind normalizeUnicode
  by_cases hraw : raw = []
  · rw [if_pos hraw, if_pos hraw, hraw]
  rw [if_neg hraw, if_neg hraw]
  simp only
  by_cases hlower : txt.lower (normalize txt raw) = []
  · rw [if_pos hlower]
  rw [if_neg hlower]
  cases kind with
  | store => rfl
  | product => rfl

/-- What a quantity is normalized to, if it is. -/
def quantityText (q : Str) : Str :=
  match InvoiceOcr.normalizeQuantity q with
  | .ok text => text
  | .error _ => []

theorem quantityText_eq {q text : Str} (h : InvoiceOcr.normalizeQuantity q = .ok text) :
    quantityText q = text := by
  unfold quantityText
  rw [h]

/-- A product with an index without names. -/
def polishProduct (txt : Texts) (p : Product) : Product where
  productId := normalizeUnicode txt p.productId
  productName := normalizeUnicode txt p.productName
  productUnitPrice := normalizeMoney p.productUnitPrice
  productQuantity := quantityText p.productQuantity
  productDiscountMoney := normalizeMoney p.productDiscountMoney
  productTotalMoney := normalizeMoney p.productTotalMoney

/-- An invoice with an index without names. -/
def polish (txt : Texts) (r : InvoiceResult) : InvoiceResult where
  name := normalizeUnicode txt r.name
  type := if r.type = [] then [] else txt.lower (strip r.type)
  date := normalizeDate r.date
  time := normalizeTime r.time
  posId := normalizeUnicode txt r.posId
  receiptNumber := normalizeUnicode txt r.receiptNumber
  cashier := normalizeUnicode txt r.cashier
  totalMoney := normalizeMoney r.totalMoney
  barcode := normalizeUnicode txt r.barcode
  products := r.products.map (polishProduct txt)

theorem normalizeProduct_empty (p : Product) : normalizeProduct txt emptyIndex p =
    (InvoiceOcr.normalizeQuantity p.productQuantity).map fun _ => polishProduct txt p := by
  unfold normalizeProduct polishProduct quantityText
  rw [matchKind_empty]
  cases InvoiceOcr.normalizeQuantity p.productQuantity <;> rfl

theorem postprocess_empty_iff {r final : InvoiceResult} :
    postprocess txt emptyIndex r = .ok final ↔
      final = polish txt r ∧ ∀ p ∈ r.products,
        ∃ text, InvoiceOcr.normalizeQuantity p.productQuantity = .ok text := by
  have hproducts : normalizeProduct txt emptyIndex = fun p =>
      (InvoiceOcr.normalizeQuantity p.productQuantity).map fun _ => polishProduct txt p :=
    funext normalizeProduct_empty
  unfold postprocess
  rw [matchKind_empty, hproducts]
  cases hmap : r.products.mapM fun p =>
      (InvoiceOcr.normalizeQuantity p.productQuantity).map fun _ => polishProduct txt p with
  | error e =>
    refine ⟨fun h => (by cases h), fun h => ?_⟩
    have hok := (@Loops.mapM_map_iff _ _ _ _ r.products
      (fun p => InvoiceOcr.normalizeQuantity p.productQuantity) (polishProduct txt) _).mpr ⟨rfl, h.2⟩
    rw [hmap] at hok
    simp at hok
  | ok ps =>
    obtain ⟨rfl, hall⟩ := Loops.mapM_map_iff.mp hmap
    exact ⟨fun h => ⟨(Except.ok.inj h).symm, hall⟩, fun h => congrArg Except.ok h.1.symm⟩

/-- The predicted product of a label that was copied. -/
def predOf (txt : Texts) (g : Fields) : Fields := dumpProduct (polishProduct txt (copyProduct g))

/-- **When a copied label is scored perfect.** -/
theorem perfect_iff : Perfect txt gt ↔
    (∀ g ∈ gt.products, ∃ text, InvoiceOcr.normalizeQuantity (g.get "product_quantity") = .ok text) ∧
      (∀ fn ∈ baseFields, compareField txt ((dump (polish txt (copyOf gt))).fields.get fn)
        (gt.fields.get fn) fn ≠ some false) ∧
      ∀ i < gt.products.length, ProductAgrees txt
        ((alignedPred txt gt.products (gt.products.map (predOf txt)))[i]?.getD [])
        (gt.products[i]?.getD []) := by
  have hproducts : (dump (polish txt (copyOf gt))).products = gt.products.map (predOf txt) := by
    show ((gt.products.map copyProduct).map (polishProduct txt)).map dumpProduct = _
    rw [List.map_map, List.map_map]
    rfl
  have hquantities : (∀ p ∈ (copyOf gt).products,
      ∃ text, InvoiceOcr.normalizeQuantity p.productQuantity = .ok text) ↔
        ∀ g ∈ gt.products,
          ∃ text, InvoiceOcr.normalizeQuantity (g.get "product_quantity") = .ok text :=
    List.forall_mem_map
  rw [← hquantities, ← hproducts, ← mismatches_evaluateSingle]
  constructor
  · intro ⟨final, hfinal, hnone⟩
    obtain ⟨rfl, hall⟩ := postprocess_empty_iff.mp hfinal
    exact ⟨hall, hnone⟩
  · intro ⟨hall, hnone⟩
    exact ⟨_, postprocess_empty_iff.mpr ⟨rfl, hall⟩, hnone⟩

/-- **The base fields agree** exactly on stable ones. -/
theorem base_agrees_iff (hlaws : TextLaws txt) :
    (∀ fn ∈ baseFields, compareField txt ((dump (polish txt (copyOf gt))).fields.get fn)
      (gt.fields.get fn) fn ≠ some false) ↔ BaseStable txt gt := by
  have hname := @compare_text txt (gt.fields.get "name") "name" fun _ _ => rfl
  have htype := @compare_type txt (gt.fields.get "type") hlaws
  have hdate := @compare_date txt (gt.fields.get "date") hlaws
  have htime := @compare_time txt (gt.fields.get "time")
  have hpos := @compare_text txt (gt.fields.get "pos_id") "pos_id" fun _ _ => rfl
  have hreceipt := @compare_text txt (gt.fields.get "receipt_number") "receipt_number" fun _ _ => rfl
  have hcashier := @compare_text txt (gt.fields.get "cashier") "cashier" fun _ _ => rfl
  have hmoney := @compare_money txt (gt.fields.get "total_money") "total_money" hlaws fun _ _ => rfl
  have hbarcode := @compare_barcode txt (gt.fields.get "barcode")
  unfold baseFields
  simp only [List.forall_mem_cons, List.not_mem_nil, false_imp_iff, implies_true, and_true]
  constructor
  · intro ⟨h1, h2, h3, h4, h5, h6, h7, h8, h9⟩
    exact ⟨hname.mp h1, htype.mp h2, hdate.mp h3, htime.mp h4, hpos.mp h5, hreceipt.mp h6,
      hcashier.mp h7, hmoney.mp h8, hbarcode.mp h9⟩
  · intro h
    exact ⟨hname.mpr h.name, htype.mpr h.type, hdate.mpr h.date, htime.mpr h.time, hpos.mpr h.posId,
      hreceipt.mpr h.receiptNumber, hcashier.mpr h.cashier, hmoney.mpr h.totalMoney,
      hbarcode.mpr h.barcode⟩

end Copied

/-! ## 7. The products -/

section Products

variable {txt : Texts} {g : Fields} {x : Str}

theorem money_eq_nil : normalizeMoneyForCompare x = [] ↔ x = [] := by
  unfold normalizeMoneyForCompare
  constructor
  · intro h
    by_contra hx
    simp only [if_neg hx] at h
    split at h
    · simp at h
    · next hsome => exact hsome h
  · intro hx
    exact if_pos hx

/-- An amount with a digit is the same money after normalization. -/
theorem money_normalizeMoney (h : HasDigit x) :
    normalizeMoneyForCompare (normalizeMoney x) = normalizeMoneyForCompare x := by
  by_cases hx : x = []
  · subst hx
    rfl
  · exact money_congr decimals_normalizeMoney (hasDigit_iff.mp h hx)

theorem name_normalizeUnicode (h : SameText txt x) :
    txt.lower (strip (normalizeUnicode txt x)) = txt.lower (strip x) := by
  by_cases hx : x = []
  · subst hx
    rfl
  · rw [normalizeUnicode_of_ne hx, strip_normalize]
    exact (h hx).2

theorem get_productName : (predOf txt g).get "product_name" =
    normalizeUnicode txt (g.get "product_name") := rfl

theorem get_unitPrice : (predOf txt g).get "product_unit_price" =
    normalizeMoney (g.get "product_unit_price") := rfl

theorem get_totalMoney : (predOf txt g).get "product_total_money" =
    normalizeMoney (g.get "product_total_money") := rfl

/-- The score of a product that agrees on everything. -/
def fullScore (txt : Texts) (g : Fields) : Nat :=
  (if normalizeMoneyForCompare (g.get "product_unit_price") ≠ [] then 2 else 0) +
    (if normalizeMoneyForCompare (g.get "product_total_money") ≠ [] then 2 else 0) +
    (if txt.lower (strip (g.get "product_name")) ≠ [] then 3 else 0)

theorem score_le (pp : Fields) : score txt g pp ≤ fullScore txt g := by
  unfold score fullScore
  refine Nat.add_le_add (Nat.add_le_add ?_ ?_) ?_
  all_goals
    split
    · next h => rw [if_pos h.1]
    · exact Nat.zero_le _

theorem score_predOf (h : ProductStable txt g) : score txt g (predOf txt g) = fullScore txt g := by
  unfold score fullScore
  rw [get_unitPrice, get_totalMoney, get_productName, money_normalizeMoney h.unitPrice,
    money_normalizeMoney h.totalMoney, name_normalizeUnicode h.name]
  simp only [and_true]

/-- A product without price, total and name. -/
def Unkeyed (g : Fields) : Prop :=
  g.get "product_unit_price" = [] ∧ g.get "product_total_money" = [] ∧ strip (g.get "product_name") = []

theorem fullScore_eq_zero (hlaws : TextLaws txt) : fullScore txt g = 0 ↔ Unkeyed g := by
  have hterm : ∀ (c : Prop) [Decidable c] (k : Nat), (if ¬c then k + 1 else 0) = 0 ↔ c := by
    intro c _ k
    by_cases hc : c
    · simp [hc]
    · simp [hc]
  unfold fullScore Unkeyed
  rw [Nat.add_eq_zero_iff, Nat.add_eq_zero_iff, hterm, hterm, hterm, money_eq_nil, money_eq_nil,
    hlaws.lower_nil, and_assoc]

/-- The copy of an unkeyed product is worth nothing. -/
theorem score_unkeyed (hlaws : TextLaws txt) (hname : SameText txt (g.get "product_name"))
    (h : Unkeyed g) (g' : Fields) : score txt g' (predOf txt g) = 0 := by
  obtain ⟨hprice, htotal, hblank⟩ := h
  have hempty : txt.lower (strip (g.get "product_name")) = [] := (hlaws.lower_nil _).mpr hblank
  have hmoney : normalizeMoneyForCompare (normalizeMoney []) = [] := rfl
  unfold score
  rw [get_unitPrice, get_totalMoney, get_productName, hprice, htotal, hmoney,
    name_normalizeUnicode hname, hempty]
  have hterm : ∀ (y : Str) (k : Nat), (if y ≠ [] ∧ [] = y then k else 0) = 0 := by
    intro y k
    exact if_neg fun h => h.1 h.2.symm
  simp only [hterm]

/-- What a stable product's own copy agrees with. -/
theorem agrees_predOf (hlaws : TextLaws txt) (h : ProductStable txt g) :
    ProductAgrees txt (predOf txt g) g := by
  have hid := (@compare_text txt (g.get "product_id") "product_id" fun _ _ => rfl).mpr h.id
  have hprice := (@compare_money txt (g.get "product_unit_price") "product_unit_price" hlaws
    fun _ _ => rfl).mpr h.unitPrice
  have htotal := (@compare_money txt (g.get "product_total_money") "product_total_money" hlaws
    fun _ _ => rfl).mpr h.totalMoney
  have hquantity : compareField txt (quantityText (g.get "product_quantity"))
      (g.get "product_quantity") "product_quantity" ≠ some false := by
    obtain ⟨text, htext, hsame⟩ := h.quantity
    rw [quantityText_eq htext, compareField_ne_false]
    exact fun hne => ⟨(hsame hne).1, decide_eq_true (hsame hne).2⟩
  unfold ProductAgrees productFields
  simp only [List.forall_mem_cons, List.not_mem_nil, false_imp_iff, implies_true, and_true]
  exact ⟨hid, compare_name hlaws h.name, hprice, hquantity, htotal⟩

/-- A product with nothing to compare. -/
def Blank (g : Fields) : Prop := ∀ fn ∈ productFields, g.get fn = []

theorem agrees_nil_iff : ProductAgrees txt [] g ↔ Blank g := by
  refine forall₂_congr fun fn _ => ?_
  rw [compareField_ne_false]
  constructor
  · intro h
    by_contra hne
    exact (h hne).1 rfl
  · exact fun hnil hne => absurd hnil hne

theorem agrees_own (hlaws : TextLaws txt) (h : ProductStable txt g) :
    ProductAgrees txt ((Greedy.own (score txt) (g, predOf txt g)).getD []) g := by
  unfold Greedy.own
  simp only
  rw [score_predOf h]
  by_cases hpos : 0 < fullScore txt g
  · rw [if_pos hpos]
    exact agrees_predOf hlaws h
  · rw [if_neg hpos]
    have hunkeyed := (fullScore_eq_zero hlaws).mp (Nat.eq_zero_of_not_pos hpos)
    obtain ⟨hprice, htotal, hblank⟩ := hunkeyed
    obtain ⟨hid, hquantity⟩ := h.keyed hprice htotal hblank
    have hname : g.get "product_name" = [] := by
      by_contra hne
      obtain ⟨hsome, hsame⟩ := h.name hne
      rw [hblank, (hlaws.lower_nil []).mpr rfl, hlaws.lower_nil] at hsame
      exact hsome hsame
    refine agrees_nil_iff.mpr ?_
    unfold Blank productFields
    simp only [List.forall_mem_cons, List.not_mem_nil, false_imp_iff, implies_true, and_true]
    exact ⟨hid, hname, hprice, hquantity, htotal⟩

/-- **Stable products are aligned with their own copies**, as far as they are aligned. -/
theorem align_stable (hlaws : TextLaws txt) {gs : List Fields} (h : ∀ g ∈ gs, ProductStable txt g) :
    (Greedy.align (score txt) gs (gs.map (predOf txt))).1 =
      gs.map fun g => Greedy.own (score txt) (g, predOf txt g) := by
  have hfst : (gs.map fun g => (g, predOf txt g)).map (·.1) = gs := by
    rw [List.map_map]
    exact List.map_id gs
  have hsnd : (gs.map fun g => (g, predOf txt g)).map (·.2) = gs.map (predOf txt) := List.map_map
  have hown := @Greedy.align_own _ _ (score txt) (gs.map fun g => (g, predOf txt g)) ?_ ?_
  · rw [hfst, hsnd, List.map_map] at hown
    exact hown
  · rw [List.forall_mem_map]
    intro g hg q _
    rw [score_predOf (h g hg)]
    exact score_le q.2
  · rw [List.forall_mem_map]
    intro g hg hzero p _
    rw [score_predOf (h g hg), fullScore_eq_zero hlaws] at hzero
    exact score_unkeyed hlaws (h g hg).name hzero p.1

theorem alignedPred_getElem? {gs preds : List Fields} {i : Nat} (hi : i < gs.length)
    (hlength : (Greedy.align (score txt) gs preds).1.length = gs.length) :
    (alignedPred txt gs preds)[i]?.getD [] =
      (((Greedy.align (score txt) gs preds).1)[i]?.getD none).getD [] := by
  unfold alignedPred
  simp only
  rw [List.getElem?_append_left (by rw [List.length_map, hlength]; exact hi), List.getElem?_map]
  rw [← hlength] at hi
  rw [List.getElem?_eq_getElem hi]
  rfl

theorem products_agree (hlaws : TextLaws txt) {gs : List Fields} (h : ∀ g ∈ gs, ProductStable txt g)
    {i : Nat} (hi : i < gs.length) :
    ProductAgrees txt ((alignedPred txt gs (gs.map (predOf txt)))[i]?.getD []) (gs[i]?.getD []) := by
  have halign := align_stable hlaws h
  rw [alignedPred_getElem? hi (by rw [halign, List.length_map]), halign, List.getElem?_map,
    List.getElem?_eq_getElem hi]
  exact agrees_own hlaws (h _ (List.getElem_mem hi))

/-- What a product that agrees is aligned with: the copy of a product, or nothing if it has no key. -/
theorem entry_of_agrees (hlaws : TextLaws txt) {gs preds : List Fields}
    (h : ∀ i < gs.length,
      ProductAgrees txt ((alignedPred txt gs preds)[i]?.getD []) (gs[i]?.getD [])) :
    ∀ g ∈ gs, ∃ a : Option Fields, (∀ pp, a = some pp → pp ∈ preds) ∧ (Unkeyed g → a = none) ∧
      ProductAgrees txt (a.getD []) g := by
  intro g hg
  obtain ⟨i, hi, rfl⟩ := List.getElem_of_mem hg
  have hall := @Greedy.align_entries _ _ (score txt) preds gs
  have hlength := hall.length_eq.symm
  have hi' : i < (Greedy.align (score txt) gs preds).1.length := by omega
  have hagrees := h i hi
  rw [alignedPred_getElem? hi hlength, List.getElem?_eq_getElem hi', List.getElem?_eq_getElem hi]
    at hagrees
  obtain ⟨hmem, hnone⟩ := hall.get hi hi'
  refine ⟨_, hmem, fun hunkeyed => hnone fun pp _ => ?_, hagrees⟩
  have hle := @score_le txt gs[i] pp
  rw [(fullScore_eq_zero hlaws).mpr hunkeyed] at hle
  exact Nat.eq_zero_of_le_zero hle

/-- **An unkeyed product that agrees has nothing to compare.** -/
theorem keyed_of_agrees {a : Option Fields} (hnone : Unkeyed g → a = none)
    (h : ProductAgrees txt (a.getD []) g) : Keyed g := by
  intro hprice htotal hblank
  rw [hnone ⟨hprice, htotal, hblank⟩] at h
  have hempty := agrees_nil_iff.mp h
  exact ⟨hempty "product_id" (by decide), hempty "product_quantity" (by decide)⟩

/-- Nothing but the copy of some product agrees with one that has something to compare. -/
theorem copied_of_agrees {gs : List Fields} {a : Option Fields}
    (hmem : ∀ pp, a = some pp → pp ∈ gs.map (predOf txt)) (h : ProductAgrees txt (a.getD []) g) :
    Blank g ∨ ∃ g' ∈ gs, ProductAgrees txt (predOf txt g') g := by
  cases a with
  | none => exact Or.inl (agrees_nil_iff.mp h)
  | some pp =>
    obtain ⟨g', hg', rfl⟩ := List.mem_map.mp (hmem pp rfl)
    exact Or.inr ⟨g', hg', h⟩

end Products

/-! ## 8. Scoring a copied label -/

namespace Sample

/-- Capital letters are no whitespace and no marks, and neither are small ones. -/
theorem toLower_cases (c : Char) : c.toLower = c ∨
    (c.toLower.toLower = c.toLower ∧ PyText.isSpace c.toLower = PyText.isSpace c ∧
      isMark c.toLower = false ∧ isMark c = false) := by
  by_cases hupper : c.val ≥ 'A'.val ∧ c.val ≤ 'Z'.val
  · have hrange : 65 ≤ c.toNat ∧ c.toNat ≤ 90 := ⟨UInt32.le_iff_toNat_le.mp hupper.1,
      UInt32.le_iff_toNat_le.mp hupper.2⟩
    have hall : ∀ k < 26, (Char.ofNat (65 + k)).toLower.toLower = (Char.ofNat (65 + k)).toLower ∧
        PyText.isSpace (Char.ofNat (65 + k)).toLower = PyText.isSpace (Char.ofNat (65 + k)) ∧
        isMark (Char.ofNat (65 + k)).toLower = false ∧ isMark (Char.ofNat (65 + k)) = false := by
      decide +kernel
    have hc : c = Char.ofNat (65 + (c.toNat - 65)) := by
      rw [Nat.add_sub_cancel' hrange.1, Char.ofNat_toNat]
    have hcase := hall (c.toNat - 65) (by omega)
    rw [← hc] at hcase
    exact Or.inr hcase
  · exact Or.inl (dif_neg hupper)

theorem textLaws_texts : TextLaws Sample.texts := by
  have hlower : ∀ c : Char, c.toLower.toLower = c.toLower := by
    intro c
    rcases toLower_cases c with h | h
    · rw [h, h]
    · exact h.1
  have hspace : PyText.isSpace ∘ Char.toLower = PyText.isSpace := by
    funext c
    rcases toLower_cases c with h | h
    · rw [Function.comp_apply, h]
    · exact h.2.1
  refine ⟨fun s => ?_, fun s => ?_, fun s => List.map_eq_nil_iff, fun s => ?_, fun s => if_pos rfl⟩
  · show (s.map Char.toLower).map Char.toLower = s.map Char.toLower
    rw [List.map_map]
    exact List.map_congr_left fun c _ => hlower c
  · show strip (s.map Char.toLower) = (strip s).map Char.toLower
    unfold strip stripBy List.rdropWhile
    rw [List.dropWhile_map, hspace, ← List.map_reverse, List.dropWhile_map, hspace, List.map_reverse]
  · show (s.map Char.toLower).filter isMark = s.filter isMark
    induction s with
    | nil => rfl
    | cons c s ih =>
      rw [List.map_cons]
      rcases toLower_cases c with h | ⟨_, _, hlow, hup⟩
      · rw [h, List.filter_cons, List.filter_cons, ih]
      · rw [List.filter_cons_of_neg (by rw [hlow]; nofun), List.filter_cons_of_neg (by rw [hup]; nofun),
          ih]

/-- A receipt with this date. -/
def dated (date : Str) : EvalRecord where
  fields := [("name".toList, "AEON".toList), ("date".toList, date), ("total_money".toList, "25,000 VND".toList)]
  products := [[("product_name".toList, "Tea".toList), ("product_amount".toList, "1".toList),
    ("product_total_money".toList, "25000".toList)]]

end Sample

/-- **A stable label scores perfect.** One that does has stable base fields and quantities that the
    pipeline reads; each of its products agrees with the copy of one, or has nothing to compare, and has
    nothing to compare if it has no key. -/
theorem evaluation_perfect {txt : Texts} (hlaws : TextLaws txt) (record : EvalRecord) :
    (Stable txt (normalizeLabelRecord record) → Perfect txt (normalizeLabelRecord record)) ∧
      (Perfect txt (normalizeLabelRecord record) →
        BaseStable txt (normalizeLabelRecord record) ∧
          ∀ p ∈ (normalizeLabelRecord record).products, Keyed p ∧
            (∃ text, InvoiceOcr.normalizeQuantity (p.get "product_quantity") = .ok text) ∧
            (Blank p ∨ ∃ p' ∈ (normalizeLabelRecord record).products,
              ProductAgrees txt (predOf txt p') p)) := by
  constructor
  · intro h
    refine perfect_iff.mpr ⟨fun g hg => ?_, (base_agrees_iff hlaws).mpr h.base, fun i hi => ?_⟩
    · obtain ⟨text, htext, _⟩ := (h.products g hg).quantity
      exact ⟨text, htext⟩
    · exact products_agree hlaws h.products hi
  · intro h
    obtain ⟨hquantities, hbase, hproducts⟩ := perfect_iff.mp h
    refine ⟨(base_agrees_iff hlaws).mp hbase, fun p hp => ?_⟩
    obtain ⟨a, hmem, hnone, hagrees⟩ := entry_of_agrees hlaws hproducts p hp
    exact ⟨keyed_of_agrees hnone hagrees, hquantities p hp, copied_of_agrees hmem hagrees⟩

/-- The same receipt, dated as the pipeline dates it. -/
theorem evaluation_perfect_dated :
    Perfect Sample.texts (normalizeLabelRecord (Sample.dated "30/08/2024".toList)) := by
  refine (evaluation_perfect Sample.textLaws_texts _).1 ⟨?_, fun p hp => ?_⟩
  · have htext : ∀ x : Str, strip x = x → SameText Sample.texts x := by
      intro x hx hne
      exact ⟨fun hnil => hne (hx.symm.trans hnil), rfl⟩
    refine ⟨htext _ (by decide), nofun, fun _ => by decide, nofun, nofun, nofun, nofun, fun _ => ?_, nofun⟩
    exact ⟨'2', by decide, by decide⟩
  · rw [List.mem_singleton.mp hp]
    refine ⟨nofun, fun _ => by decide +kernel, nofun, ⟨"1".toList, by decide +kernel, fun _ => ?_⟩,
      fun _ => ⟨'2', by decide, by decide⟩, fun _ htotal => by cases htotal⟩
    exact ⟨by decide, rfl⟩

/-- A label dated 30-08-2024. -/
theorem date_mismatch : ∃ txt, TextLaws txt ∧
    ∃ record, ¬ Perfect txt (normalizeLabelRecord record) := by
  refine ⟨Sample.texts, Sample.textLaws_texts, Sample.dated "30-08-2024".toList, fun h => ?_⟩
  have hbase := (base_agrees_iff Sample.textLaws_texts).mp (perfect_iff.mp h).2.1
  have hkept := (hbase.date (by decide)).2
  cases hkept

end Eval

end InvoiceOcr
