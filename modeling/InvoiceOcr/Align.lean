/-
  File:      InvoiceOcr/Align.lean
  Subject:   ALIGNING THE LABELS WITH THE SCHEMA (scripts/schema_align.py), and what the evaluation
             reads of them (scripts/run_eval.py, `_normalize_label_record`).

  * `schemaAlign` -- `main` for the records of a file; nothing is written if one is refused;
  * `normalizeLabelRecord` -- what the evaluation reads of a record, any JSON value in it;
    `normalizeLabelRecord_jsonOf` -- of a record of texts it is what the scorer's model reads;
  * **`aligned_label_iff`** -- an aligned record reads the same exactly when no product has an old name
    (`product_code`, `product_amount`) only;
  * **`label_code_lost`** -- a product that has a `product_code` only loses it.
-/
import InvoiceOcr.Evaluation
import InvoiceOcr.JsonSchema
import InvoiceOcr.Rebuild

namespace InvoiceOcr

open PyJson Async

namespace Align

/-! ## 1. The two scripts -/

/-- What a loop goes through. -/
def iterated : Json → Except PyExc (List Json)
  | .arr xs => .ok xs
  | .str s => .ok (s.map fun c => .str [c])
  | .obj kvs => .ok (kvs.map fun kv => .str kv.1)
  | v => .error (.typeError ("'".toList ++ typeName v ++ "' object is not iterable".toList))

/-- `{k: v for k, v in d.items() if k in fields}`. -/
def projected (fields : List Str) (d : Dict) : Dict := d.filter fun kv => fields.contains kv.1

/-- `aligned_prod`, or what is no dict as it is. -/
def alignProduct : Json → Json
  | .obj prod => .obj (projected Product.fields prod)
  | prod => prod

/-- `aligned_item`. -/
def alignItem (item : Dict) : Except PyExc Dict := do
  let alignedItem := projected InvoiceResult.fields item
  let alignedItem := match Dict.get? item "file".toList with
    | some file => Dict.set alignedItem "file".toList file
    | none => alignedItem
  match Dict.get? alignedItem "products".toList with
  | none => return alignedItem
  | some products =>
    return Dict.set alignedItem "products".toList (.arr ((← iterated products).map alignProduct))

/-- `InvoiceResult(**test_item)` raises nothing. -/
def accepted (item : Dict) : Bool :=
  let testItem := item.filter fun kv => kv.1 ≠ "file".toList
  (InvoiceResult.modelValidate (.obj testItem)).isOk

/-- `main` of `schema_align.py`: what is written; `none` where it exits with 1. -/
def schemaAlign (data : List Dict) : Except PyExc (Option (List Dict)) := do
  let alignedData ← data.mapM alignItem
  return if alignedData.all accepted then some alignedData else none

/-- What the evaluation reads of a product. -/
def labelProduct (p : Dict) : Dict :=
  let get (k : String) (default : Json) := (Dict.get? p k.toList).getD default
  [("product_id".toList, get "product_id" (get "product_code" (.str []))),
   ("product_name".toList, get "product_name" (.str [])),
   ("product_unit_price".toList, get "product_unit_price" (.str [])),
   ("product_quantity".toList, get "product_quantity" (get "product_amount" (.str []))),
   ("product_total_money".toList, get "product_total_money" (.str []))]

def normalizeLabelProduct : Json → Except PyExc Dict
  | .obj p => .ok (labelProduct p)
  | v => .error (.attributeError
      ("'".toList ++ typeName v ++ "' object has no attribute 'get'".toList))

/-- What the evaluation reads of a record, with its products. -/
def labelRecord (record : Dict) (products : List Dict) : Dict :=
  let get (k : String) := (Dict.get? record k.toList).getD (.str [])
  [("name".toList, get "name"),
   ("type".toList, get "type"),
   ("date".toList, get "date"),
   ("time".toList, get "time"),
   ("pos_id".toList, get "pos_id"),
   ("receipt_number".toList, get "receipt_number"),
   ("cashier".toList, get "cashier"),
   ("total_money".toList, get "total_money"),
   ("barcode".toList, get "barcode"),
   ("products".toList, .arr (products.map .obj))]

/-- `_normalize_label_record`. -/
def normalizeLabelRecord (record : Dict) : Except PyExc Dict := do
  let items ← iterated ((Dict.get? record "products".toList).getD (.arr []))
  let products ← items.mapM normalizeLabelProduct
  return labelRecord record products

/-- The product has no value under an old name only. -/
def Renamed : Json → Prop
  | .obj p =>
    (Dict.get? p "product_id".toList = none →
      (Dict.get? p "product_code".toList).getD (.str []) = .str []) ∧
    (Dict.get? p "product_quantity".toList = none →
      (Dict.get? p "product_amount".toList).getD (.str []) = .str [])
  | _ => True

/-- The products of a record, if there is something to go through. -/
def lineItems (record : Dict) : List Json :=
  match iterated ((Dict.get? record "products".toList).getD (.arr [])) with
  | .ok xs => xs
  | .error _ => []

/-! ## 2. An aligned record -/

section Aligned

variable {item aligned : Dict}

theorem get?_projected {fields : List Str} {d : Dict} {k : Str} :
    Dict.get? (projected fields d) k = if k ∈ fields then Dict.get? d k else none := by
  unfold projected
  split_ifs with h
  · exact get?_filter (p := fields.contains) (by simpa using h)
  · exact get?_filter_none (p := fields.contains) (by simpa using h)

/-- What an aligned record has at a field of the schema other than its products. -/
structure Aligned (item aligned : Dict) : Prop where
  base : ∀ k ∈ InvoiceResult.fields, k ≠ "products".toList → Dict.get? aligned k = Dict.get? item k
  products : match Dict.get? item "products".toList with
    | none => Dict.get? aligned "products".toList = none
    | some v => ∃ xs, iterated v = .ok xs ∧
        Dict.get? aligned "products".toList = some (.arr (xs.map alignProduct))

/-- The record with its file kept. -/
theorem get?_withFile {k : Str} (hk : k ∈ InvoiceResult.fields) :
    Dict.get? (match Dict.get? item "file".toList with
      | some file => Dict.set (projected InvoiceResult.fields item) "file".toList file
      | none => projected InvoiceResult.fields item) k = Dict.get? item k := by
  have hfile : "file".toList ≠ k := by
    rintro rfl
    revert hk
    decide
  have hprojected : Dict.get? (projected InvoiceResult.fields item) k = Dict.get? item k := by
    rw [get?_projected, if_pos hk]
  split
  · rw [get?_set_ne hfile, hprojected]
  · exact hprojected

theorem alignItem_ok (h : alignItem item = .ok aligned) : Aligned item aligned := by
  have hproducts := @get?_withFile item "products".toList (by decide)
  unfold alignItem at h
  simp only at h
  rw [hproducts] at h
  cases hvalue : Dict.get? item "products".toList with
  | none =>
    rw [hvalue] at h hproducts
    cases h
    refine ⟨fun k hk _ => get?_withFile hk, ?_⟩
    rw [hvalue]
    exact hproducts
  | some v =>
    rw [hvalue] at h
    obtain ⟨xs, hxs, h⟩ := Proc.bind_eq_ok h
    cases h
    refine ⟨fun k hk hne => ?_, ?_⟩
    · rw [get?_set_ne (Ne.symm hne), get?_withFile hk]
    · rw [hvalue]
      exact ⟨xs, hxs, get?_set_self⟩

/-- What is filled as a product is a dict. -/
theorem dicts_of_filled {xs ys : List Json} (h : List.Forall₂ (Filled productSchema) xs ys) :
    ∃ ds : List Dict, xs = ds.map .obj := by
  induction h with
  | nil => exact ⟨[], rfl⟩
  | @cons x _ _ _ hx _ ih =>
    obtain ⟨ds, rfl⟩ := ih
    cases x with
    | obj d => exact ⟨d :: ds, rfl⟩
    | _ => exact hx.elim

/-- The products of an accepted record are dicts. -/
theorem dicts_of_accepted (h : accepted aligned = true) {xs : List Json}
    (hxs : Dict.get? aligned "products".toList = some (.arr xs)) : ∃ ds : List Dict, xs = ds.map .obj := by
  simp only [accepted] at h
  cases hr : InvoiceResult.modelValidate (.obj (aligned.filter fun kv => kv.1 ≠ "file".toList)) with
  | error e =>
    rw [hr] at h
    cases h
  | ok r =>
    have hfilled : FilledProps _ (aligned.filter fun kv => kv.1 ≠ "file".toList) r.modelDump ∧ _ :=
      filled_of_fill complete_legacyJsonSchema (InvoiceResult.fill_eq_some.mpr ⟨r, hr, rfl⟩)
    have hproducts := filledProps_iff.mp hfilled.1 "products".toList (.array productSchema)
      (List.mem_of_getElem? (i := 9) rfl)
    rw [get?_filter (p := fun k => k ≠ "file".toList) (by decide), hxs] at hproducts
    obtain ⟨w, -, hw⟩ := hproducts
    cases w with
    | arr ys => exact dicts_of_filled hw
    | _ => exact hw.elim

theorem dicts_of_map : ∀ {xs : List Json} {ds : List Dict}, xs.map alignProduct = ds.map .obj →
    ∃ ds : List Dict, xs = ds.map .obj
  | [], _, _ => ⟨[], rfl⟩
  | x :: xs, [], h => by cases h
  | x :: xs, d :: ds, h => by
    obtain ⟨hx, hxs⟩ := List.cons.inj h
    obtain ⟨ds', rfl⟩ := dicts_of_map hxs
    cases x with
    | obj d' => exact ⟨d' :: ds', rfl⟩
    | _ => cases hx

end Aligned

/-! ## 3. What the evaluation reads -/

section Read

variable {record aligned : Dict}

/-- **A product reads the same without its other keys** exactly if it has no value under an old name
    only. -/
theorem labelProduct_projected (p : Dict) :
    labelProduct (projected Product.fields p) = labelProduct p ↔ Renamed (.obj p) := by
  have hkept : ∀ k ∈ Product.fields, Dict.get? (projected Product.fields p) k = Dict.get? p k :=
    fun k hk => by rw [get?_projected, if_pos hk]
  have hgone : ∀ k, k ∉ Product.fields → Dict.get? (projected Product.fields p) k = none :=
    fun k hk => by rw [get?_projected, if_neg hk]
  have hcode := hgone "product_code".toList (by decide)
  have hamount := hgone "product_amount".toList (by decide)
  unfold labelProduct Renamed
  simp only [hcode, hamount, hkept "product_id".toList (by decide),
    hkept "product_name".toList (by decide), hkept "product_unit_price".toList (by decide),
    hkept "product_quantity".toList (by decide), hkept "product_total_money".toList (by decide),
    List.cons.injEq, Prod.mk.injEq, true_and, and_true, Option.getD_none]
  refine and_congr ?_ ?_
  · cases Dict.get? p "product_id".toList <;> simp [eq_comm]
  · cases Dict.get? p "product_quantity".toList <;> simp [eq_comm]

theorem mapM_labels : ∀ ds : List Dict,
    (ds.map Json.obj).mapM normalizeLabelProduct = .ok (ds.map labelProduct)
  | [] => rfl
  | d :: ds => by
    rw [List.map_cons, List.mapM_cons, mapM_labels ds]
    rfl

/-- A record whose products are dicts is read. -/
theorem normalizeLabelRecord_dicts {ds : List Dict}
    (h : iterated ((Dict.get? record "products".toList).getD (.arr [])) = .ok (ds.map .obj)) :
    normalizeLabelRecord record = .ok (labelRecord record (ds.map labelProduct)) := by
  unfold normalizeLabelRecord
  rw [h]
  show ((ds.map Json.obj).mapM normalizeLabelProduct >>= _) = _
  rw [mapM_labels]
  rfl

/-- A dict of texts, as JSON. -/
def texts (d : Eval.Fields) : Dict := d.map fun x => (x.1, .str x.2)

/-- A record of texts, as JSON. -/
def jsonOf (r : Eval.EvalRecord) : Dict :=
  texts r.fields ++ [("products".toList, .arr (r.products.map fun p => .obj (texts p)))]

theorem get?_texts (d : Eval.Fields) (rest : Dict) (k : Str) :
    Dict.get? (texts d ++ rest) k = ((d.lookup k).map .str).or (Dict.get? rest k) := by
  induction d with
  | nil => rfl
  | cons x d ih =>
    obtain ⟨k', v⟩ := x
    by_cases hk : k' = k
    · subst hk
      simp [texts, Dict.get?]
    · have hk' : (k == k') = false := beq_eq_false_iff_ne.mpr (Ne.symm hk)
      rw [List.lookup_cons, hk', ← ih]
      exact get?_cons_ne hk

theorem labelProduct_texts (p : Eval.Fields) :
    labelProduct (texts p) = texts (Eval.normalizeLabelProduct p) := by
  have hget : ∀ k, Dict.get? (texts p) k = (p.lookup k).map .str := fun k => by
    have h := get?_texts p [] k
    rw [List.append_nil] at h
    rw [h]
    exact Option.or_none
  simp only [labelProduct, hget, Option.getD_map]
  rfl

/-- **A record of texts reads as the scorer's model reads it.** -/
theorem normalizeLabelRecord_jsonOf {r : Eval.EvalRecord}
    (h : r.fields.lookup "products".toList = none) :
    normalizeLabelRecord (jsonOf r) = .ok (jsonOf (Eval.normalizeLabelRecord r)) := by
  have hproducts : Dict.get? (jsonOf r) "products".toList =
      some (.arr ((r.products.map texts).map Json.obj)) := by
    rw [jsonOf, get?_texts, h, List.map_map]
    rfl
  have hget : ∀ k, "products".toList ≠ k →
      Dict.get? (jsonOf r) k = (r.fields.lookup k).map .str := fun k hk => by
    rw [jsonOf, get?_texts, get?_cons_ne hk]
    exact Option.or_none
  rw [@normalizeLabelRecord_dicts (jsonOf r) (r.products.map texts) (by rw [hproducts]; rfl)]
  simp only [labelRecord, hget _ (show "products".toList ≠ "name".toList by decide),
    hget _ (show "products".toList ≠ "type".toList by decide),
    hget _ (show "products".toList ≠ "date".toList by decide),
    hget _ (show "products".toList ≠ "time".toList by decide),
    hget _ (show "products".toList ≠ "pos_id".toList by decide),
    hget _ (show "products".toList ≠ "receipt_number".toList by decide),
    hget _ (show "products".toList ≠ "cashier".toList by decide),
    hget _ (show "products".toList ≠ "total_money".toList by decide),
    hget _ (show "products".toList ≠ "barcode".toList by decide), Option.getD_map, List.map_map,
    Function.comp_def, labelProduct_texts]
  rw [jsonOf, Eval.normalizeLabelRecord, List.map_map]
  rfl

theorem labelRecord_congr (h : ∀ k ∈ InvoiceResult.fields, k ≠ "products".toList →
    Dict.get? aligned k = Dict.get? record k) (products : List Dict) :
    labelRecord aligned products = labelRecord record products := by
  simp only [labelRecord, h "name".toList (by decide) (by decide),
    h "type".toList (by decide) (by decide), h "date".toList (by decide) (by decide),
    h "time".toList (by decide) (by decide), h "pos_id".toList (by decide) (by decide),
    h "receipt_number".toList (by decide) (by decide), h "cashier".toList (by decide) (by decide),
    h "total_money".toList (by decide) (by decide), h "barcode".toList (by decide) (by decide)]

theorem labelRecord_inj {products products' : List Dict}
    (h : labelRecord record products = labelRecord record products') : products = products' := by
  unfold labelRecord at h
  simp only [List.cons.injEq, Prod.mk.injEq, true_and, and_true, Json.arr.injEq] at h
  exact List.map_injective_iff.mpr (fun a b hab => by cases hab; rfl) h

/-- **A record that is aligned and accepted reads the same** exactly if none of its products has a
    value under an old name only. -/
theorem normalize_aligned (h : Aligned record aligned) (haccepted : accepted aligned = true) :
    normalizeLabelRecord aligned = normalizeLabelRecord record ↔
      ∀ p ∈ lineItems record, Renamed p := by
  have hproducts := h.products
  unfold lineItems
  cases hvalue : Dict.get? record "products".toList with
  | none =>
    rw [hvalue] at hproducts
    have hread : ∀ r : Dict, Dict.get? r "products".toList = none →
        normalizeLabelRecord r = .ok (labelRecord r []) :=
      fun r hr => @normalizeLabelRecord_dicts r [] (by rw [hr]; rfl)
    rw [hread _ hproducts, hread _ hvalue, labelRecord_congr h.base]
    simp [iterated]
  | some v =>
    rw [hvalue] at hproducts
    obtain ⟨xs, hxs, haligned⟩ := hproducts
    obtain ⟨ds', hds'⟩ := dicts_of_accepted haccepted haligned
    obtain ⟨ds, rfl⟩ := dicts_of_map hds'
    have hdicts : (ds.map Json.obj).map alignProduct =
        (ds.map (projected Product.fields)).map Json.obj := by
      rw [List.map_map, List.map_map]
      rfl
    rw [hdicts] at haligned
    rw [@normalizeLabelRecord_dicts aligned _ (by rw [haligned]; rfl),
      @normalizeLabelRecord_dicts record _ (by rw [hvalue]; exact hxs),
      labelRecord_congr h.base, Option.getD_some, hxs, List.forall_mem_map, List.map_map]
    constructor
    · intro hsame d hd
      have hmaps := labelRecord_inj (Except.ok.inj hsame)
      exact (labelProduct_projected d).mp (List.map_inj_left.mp hmaps d hd)
    · intro hrenamed
      have hmaps : ds.map (labelProduct ∘ projected Product.fields) = ds.map labelProduct :=
        List.map_inj_left.mpr fun d hd => (labelProduct_projected d).mpr (hrenamed d hd)
      rw [hmaps]

end Read

end Align

open Align

/-- **Aligning the labels loses nothing the evaluation reads** exactly where no product has a value
    under an old name only. -/
theorem aligned_label_iff {data out : List Dict} {i : Nat} {r r' : Dict}
    (hrun : schemaAlign data = .ok (some out)) (hr : data[i]? = some r) (hr' : out[i]? = some r') :
    normalizeLabelRecord r' = normalizeLabelRecord r ↔ ∀ p ∈ lineItems r, Renamed p := by
  unfold schemaAlign at hrun
  obtain ⟨alignedData, haligned, hrun⟩ := Proc.bind_eq_ok hrun
  have hall : alignedData.all accepted = true ∧ alignedData = out := by
    cases hall : alignedData.all accepted with
    | true =>
      rw [hall] at hrun
      cases hrun
      exact ⟨rfl, rfl⟩
    | false =>
      rw [hall] at hrun
      cases hrun
  obtain ⟨hall, rfl⟩ := hall
  exact normalize_aligned (alignItem_ok (Loops.getElem?_mapM haligned hr hr'))
    (List.all_eq_true.mp hall r' (List.mem_of_getElem? hr'))

namespace Sample

/-- A product as the labels have it, its number under the given name. -/
def labelled (number : String) : Dict :=
  [(number.toList, .str "000009639928".toList),
   ("product_name".toList, .str "LOC 6 LON BIA TUYET EDELWEISS 330ML+LY".toList),
   ("product_amount".toList, .str ['2']),
   ("product_discount_money".toList, .str []),
   ("product_unit_price".toList, .str "115000".toList),
   ("product_total_money".toList, .str "230000".toList),
   ("product_quantity".toList, .str ['2'])]

/-- A label record with that product. -/
def labelWith (number : String) : Dict :=
  [("type".toList, .str "aeon".toList), ("total_money".toList, .str "230000".toList),
   ("products".toList, .arr [.obj (labelled number)]),
   ("campaign_id".toList, .str "125".toList), ("file".toList, .str "1746619852hqfNt_blob".toList)]

/-- What is written for it. -/
def alignedWith (number : String) : Dict :=
  [("type".toList, .str "aeon".toList), ("total_money".toList, .str "230000".toList),
   ("products".toList, .arr [.obj (projected Product.fields (labelled number))]),
   ("file".toList, .str "1746619852hqfNt_blob".toList)]

theorem align_id : schemaAlign [labelWith "product_id"] = .ok (some [alignedWith "product_id"]) := rfl

theorem align_code :
    schemaAlign [labelWith "product_code"] = .ok (some [alignedWith "product_code"]) := rfl

end Sample

theorem aligned_label_id : normalizeLabelRecord (Sample.alignedWith "product_id") =
    normalizeLabelRecord (Sample.labelWith "product_id") :=
  (aligned_label_iff (i := 0) Sample.align_id rfl rfl).mpr fun p hp => by
    obtain rfl := List.mem_singleton.mp hp
    exact ⟨fun h => absurd h (Option.some_ne_none _), fun h => absurd h (Option.some_ne_none _)⟩

/-- **A product that has a `product_code` only loses it**: the aligned record is accepted and written,
    and the evaluation reads no number of it. -/
theorem label_code_lost :
    schemaAlign [Sample.labelWith "product_code"] = .ok (some [Sample.alignedWith "product_code"]) ∧
      normalizeLabelRecord (Sample.alignedWith "product_code") ≠
        normalizeLabelRecord (Sample.labelWith "product_code") := by
  refine ⟨Sample.align_code, fun h => ?_⟩
  have hrenamed := (normalize_aligned (alignItem_ok rfl) rfl).mp h _ (List.mem_singleton.mpr rfl)
  cases hrenamed.1 rfl

end InvoiceOcr
