/-
  File:      InvoiceOcr/JsonSchema.lean
  Subject:   THE SCHEMA SENT TO THE MODEL (src/pipeline/json_schema.py) AND THE PYDANTIC MODEL.

  * `productSchema`, `legacyJsonSchema` -- the two literals;
  * `Product.fill_eq`, `InvoiceResult.fill_eq` -- `model_validate` and `model_dump` are the filling of
    the schema;
  * **`schema_and_model_agree`** -- a complete value without further keys survives validation and
    dump; every dump is complete and validates back; validation only adds absent keys.
-/
import InvoiceOcr.Json.Schema
import InvoiceOcr.Schemas

namespace InvoiceOcr

open PyJson

/-! ## 1. The literals -/

/-- `_PRODUCT_SCHEMA`. -/
def productSchema : Schema :=
  .object
    ["product_id".toList, "product_name".toList, "product_unit_price".toList,
     "product_quantity".toList, "product_discount_money".toList, "product_total_money".toList]
    [("product_id".toList, .string),
     ("product_name".toList, .string),
     ("product_unit_price".toList, .string),
     ("product_quantity".toList, .string),
     ("product_discount_money".toList, .string),
     ("product_total_money".toList, .string)]

/-- `LEGACY_JSON_SCHEMA`. -/
def legacyJsonSchema : Schema :=
  .object
    ["name".toList, "type".toList, "date".toList, "time".toList, "pos_id".toList,
     "receipt_number".toList, "cashier".toList, "total_money".toList, "barcode".toList,
     "products".toList]
    [("name".toList, .string),
     ("type".toList, .string),
     ("date".toList, .string),
     ("time".toList, .string),
     ("pos_id".toList, .string),
     ("receipt_number".toList, .string),
     ("cashier".toList, .string),
     ("total_money".toList, .string),
     ("barcode".toList, .string),
     ("products".toList, .array productSchema)]

theorem complete_legacyJsonSchema : legacyJsonSchema.complete = true := by decide

/-! ## 2. Validation is filling -/

theorem toOption_bind {ε α β : Type} (x : Except ε α) (f : α → Except ε β) :
    (x >>= f).toOption = x.toOption.bind fun a => (f a).toOption := by
  cases x <;> rfl

/-- A text field is validated as the schema of a text is filled. -/
theorem strField_fill (d : Dict) (k : Str) :
    (Dict.get? d k).elim (Schema.default .string) (Schema.fill .string) =
      (strField d k).toOption.map .str := by
  unfold strField
  cases hv : Dict.get? d k with
  | none => rfl
  | some v => cases v <;> rfl

/-- The fields of a model are read one after the other, as the properties are filled. -/
theorem fillProps_string {α : Type} (k : Str) (props : List (Str × Schema)) (d : Dict)
    (f : Dict → Option α) : (fillProps ((k, .string) :: props) d).bind f =
      (strField d k).toOption.bind fun x => (fillProps props d).bind fun e => f ((k, .str x) :: e) := by
  rw [fillProps, strField_fill, Option.bind_map, Option.bind_assoc]
  exact Option.bind_congr fun x _ => Option.bind_assoc _ _ _

/-- **A product is validated and dumped as its schema is filled.** -/
theorem Product.fill_eq (v : Json) :
    productSchema.fill v = (Product.modelValidate v).toOption.map fun p => .obj p.modelDump := by
  cases v with
  | obj d =>
    have hfill : productSchema.fill (.obj d) = if (Dict.keys d).all (Product.fields.contains ·) then
      (fillProps _ d).map .obj else none := rfl
    rw [hfill, Option.map_eq_bind, Option.map_eq_bind]
    simp only [Product.modelValidate, List.contains_eq_mem]
    split_ifs with h
    · simp only [fillProps_string, toOption_bind, Option.bind_assoc]
      rfl
    · rfl
  | _ => rfl

theorem productList_fill : ∀ vs : List Json, vs.mapM productSchema.fill =
    (productList vs).toOption.map fun ps => ps.map fun p => .obj p.modelDump
  | [] => rfl
  | v :: vs => by
    rw [List.mapM_cons, Product.fill_eq, productList_fill vs, productList, toOption_bind]
    cases (Product.modelValidate v).toOption with
    | none => rfl
    | some p =>
      simp only [Option.map_some, Option.bind_some, toOption_bind]
      cases (productList vs).toOption <;> rfl

theorem productsField_fill (d : Dict) :
    (Dict.get? d "products".toList).elim (Schema.default (.array productSchema))
      (Schema.fill (.array productSchema)) =
      (productsField d).toOption.map fun ps => .arr (ps.map fun p => .obj p.modelDump) := by
  unfold productsField
  cases hv : Dict.get? d "products".toList with
  | none => rfl
  | some v =>
    cases v with
    | arr vs =>
      simp only [Option.elim_some, Schema.fill, productList_fill, Option.map_map, Function.comp_def]
    | _ => rfl

/-- **An invoice is validated and dumped as its schema is filled.** -/
theorem InvoiceResult.fill_eq (v : Json) : legacyJsonSchema.fill v =
    (InvoiceResult.modelValidate v).toOption.map fun r => .obj r.modelDump := by
  cases v with
  | obj d =>
    have hfill : legacyJsonSchema.fill (.obj d) = if (Dict.keys d).all (InvoiceResult.fields.contains ·) then
      (fillProps _ d).map .obj else none := rfl
    rw [hfill, Option.map_eq_bind, Option.map_eq_bind]
    simp only [InvoiceResult.modelValidate, List.contains_eq_mem]
    split_ifs with h
    · simp only [fillProps_string, toOption_bind, Option.bind_assoc]
      simp only [fillProps, productsField_fill, Option.bind_map, Function.comp_def, Option.bind_some,
        Option.bind_assoc]
      rfl
    · rfl
  | _ => rfl

theorem toOption_eq_some {ε α : Type} {x : Except ε α} {a : α} : x.toOption = some a ↔ x = .ok a := by
  cases x <;> simp [Except.toOption]

theorem InvoiceResult.fill_eq_some {v w : Json} : legacyJsonSchema.fill v = some w ↔
    ∃ r, InvoiceResult.modelValidate v = .ok r ∧ .obj r.modelDump = w := by
  rw [InvoiceResult.fill_eq]
  simp only [Option.map_eq_some_iff, toOption_eq_some]

/-! ## 3. The two descriptions agree -/

/-- **The schema and the pydantic model describe the same invoices**: a value that satisfies the
    schema and has no further key is what its validation dumps; every dump satisfies the schema and
    validates back; and validation fills absent keys and changes nothing else. -/
theorem schema_and_model_agree :
    (∀ v, legacyJsonSchema.accepts v = true → legacyJsonSchema.closed v = true →
      ∃ r, InvoiceResult.modelValidate v = .ok r ∧ Same (.obj r.modelDump) v) ∧
    (∀ r : InvoiceResult, legacyJsonSchema.accepts (.obj r.modelDump) = true ∧
      InvoiceResult.modelValidate (.obj r.modelDump) = .ok r) ∧
    (∀ v r, InvoiceResult.modelValidate v = .ok r → Filled legacyJsonSchema v (.obj r.modelDump)) := by
  refine ⟨fun v haccepts hclosed => ?_, fun r => ⟨?_, r.modelValidate_dump⟩, fun v r h => ?_⟩
  · obtain ⟨w, hw, hsame⟩ := fill_same complete_legacyJsonSchema haccepts hclosed
    obtain ⟨r, hr, rfl⟩ := InvoiceResult.fill_eq_some.mp hw
    exact ⟨r, hr, hsame⟩
  · exact fill_accepts complete_legacyJsonSchema
      (InvoiceResult.fill_eq_some.mpr ⟨r, r.modelValidate_dump, rfl⟩)
  · exact filled_of_fill complete_legacyJsonSchema (InvoiceResult.fill_eq_some.mpr ⟨r, h, rfl⟩)

end InvoiceOcr
