/-
  File:      InvoiceOcr/Schemas.lean
  Subject:   INVOICES AND THEIR JSON (src/schemas/invoice.py).

  * `Product`, `InvoiceResult` -- all fields are texts, missing ones empty;
  * `modelDump`, `modelValidate` -- pydantic's default behaviour with `extra="forbid"`: a field
    may be absent, must be a text when present, and no other key is accepted;
  * `loads_modelDump` -- JSON dump, load and validation of an invoice give back the invoice. The text
    of a pydantic error is not modelled.
-/
import InvoiceOcr.Domain

namespace InvoiceOcr

open PyJson

structure Product where
  productId : Str := []
  productName : Str := []
  productUnitPrice : Str := []
  productQuantity : Str := []
  productDiscountMoney : Str := []
  productTotalMoney : Str := []
  deriving DecidableEq, Repr

structure InvoiceResult where
  name : Str := []
  type : Str := []
  date : Str := []
  time : Str := []
  posId : Str := []
  receiptNumber : Str := []
  cashier : Str := []
  totalMoney : Str := []
  barcode : Str := []
  products : List Product := []
  deriving DecidableEq, Repr

/-! ## 1. Dump and validation -/

/-- `product.model_dump()`. -/
def Product.modelDump (p : Product) : Dict :=
  [("product_id".toList, .str p.productId),
   ("product_name".toList, .str p.productName),
   ("product_unit_price".toList, .str p.productUnitPrice),
   ("product_quantity".toList, .str p.productQuantity),
   ("product_discount_money".toList, .str p.productDiscountMoney),
   ("product_total_money".toList, .str p.productTotalMoney)]

/-- `invoice.model_dump()`. -/
def InvoiceResult.modelDump (r : InvoiceResult) : Dict :=
  [("name".toList, .str r.name),
   ("type".toList, .str r.type),
   ("date".toList, .str r.date),
   ("time".toList, .str r.time),
   ("pos_id".toList, .str r.posId),
   ("receipt_number".toList, .str r.receiptNumber),
   ("cashier".toList, .str r.cashier),
   ("total_money".toList, .str r.totalMoney),
   ("barcode".toList, .str r.barcode),
   ("products".toList, .arr (r.products.map fun p => .obj p.modelDump))]

def Product.fields : List Str :=
  ["product_id".toList, "product_name".toList, "product_unit_price".toList,
   "product_quantity".toList, "product_discount_money".toList, "product_total_money".toList]

def InvoiceResult.fields : List Str :=
  ["name".toList, "type".toList, "date".toList, "time".toList, "pos_id".toList,
   "receipt_number".toList, "cashier".toList, "total_money".toList, "barcode".toList,
   "products".toList]

def validationError : PyExc := .validationError "validation error".toList

/-- A field `name: str = ""`. -/
def strField (d : Dict) (k : Str) : Except PyExc Str :=
  match Dict.get? d k with
  | none => .ok []
  | some (.str s) => .ok s
  | some _ => .error validationError

/-- `Product.model_validate(v)`. -/
def Product.modelValidate : Json → Except PyExc Product
  | .obj d =>
    if (Dict.keys d).all (· ∈ Product.fields) then do
      let productId ← strField d "product_id".toList
      let productName ← strField d "product_name".toList
      let productUnitPrice ← strField d "product_unit_price".toList
      let productQuantity ← strField d "product_quantity".toList
      let productDiscountMoney ← strField d "product_discount_money".toList
      let productTotalMoney ← strField d "product_total_money".toList
      return { productId, productName, productUnitPrice, productQuantity, productDiscountMoney,
               productTotalMoney }
    else .error validationError
  | _ => .error validationError

/-- The items of a `list[Product]`. -/
def productList : List Json → Except PyExc (List Product)
  | [] => .ok []
  | v :: vs => do
    let p ← Product.modelValidate v
    let ps ← productList vs
    return p :: ps

/-- The field `products: list[Product]` with the empty list as default. -/
def productsField (d : Dict) : Except PyExc (List Product) :=
  match Dict.get? d "products".toList with
  | none => .ok []
  | some (.arr vs) => productList vs
  | some _ => .error validationError

/-- `InvoiceResult.model_validate(v)`. -/
def InvoiceResult.modelValidate : Json → Except PyExc InvoiceResult
  | .obj d =>
    if (Dict.keys d).all (· ∈ InvoiceResult.fields) then do
      let name ← strField d "name".toList
      let type ← strField d "type".toList
      let date ← strField d "date".toList
      let time ← strField d "time".toList
      let posId ← strField d "pos_id".toList
      let receiptNumber ← strField d "receipt_number".toList
      let cashier ← strField d "cashier".toList
      let totalMoney ← strField d "total_money".toList
      let barcode ← strField d "barcode".toList
      let products ← productsField d
      return { name, type, date, time, posId, receiptNumber, cashier, totalMoney, barcode,
               products }
    else .error validationError
  | _ => .error validationError

/-- `InvoiceResult.model_validate_json(text)`. -/
def InvoiceResult.modelValidateJson (text : Str) : Except PyExc InvoiceResult :=
  match loads text with
  | none => .error validationError
  | some v => InvoiceResult.modelValidate v

/-! ## 2. The round trip -/

theorem Product.modelValidate_dump (p : Product) : Product.modelValidate (.obj p.modelDump) = .ok p := by
  cases p
  rfl

theorem productList_dump : ∀ ps : List Product,
    productList (ps.map fun p => .obj p.modelDump) = .ok ps
  | [] => rfl
  | p :: ps => by
    simp only [List.map_cons, productList, Product.modelValidate_dump, productList_dump ps]
    rfl

/-- **Validation undoes the dump.** -/
theorem InvoiceResult.modelValidate_dump (r : InvoiceResult) :
    InvoiceResult.modelValidate (.obj r.modelDump) = .ok r := by
  have hk : (Dict.keys r.modelDump).all (· ∈ InvoiceResult.fields) = true := rfl
  have hp : productsField r.modelDump = .ok r.products := productList_dump r.products
  simp only [InvoiceResult.modelValidate, hk, if_true, hp]
  rfl

/-- A dumped list of products is made of texts and dicts. -/
theorem plainItems_products : ∀ ps : List Product,
    PlainItems (ps.map fun p => Json.obj p.modelDump)
  | [] => trivial
  | p :: ps => ⟨⟨by simp [Dict.keys, Product.modelDump], trivial, trivial, trivial, trivial, trivial, trivial, trivial⟩,
      plainItems_products ps⟩

/-- A dumped invoice is made of texts, lists and dicts. -/
theorem plain_modelDump (r : InvoiceResult) : Plain (.obj r.modelDump) :=
  ⟨by simp [Dict.keys, InvoiceResult.modelDump], trivial, trivial, trivial, trivial, trivial, trivial,
    trivial, trivial, trivial, plainItems_products r.products, trivial⟩

/-- **JSON dump, load and validation of an invoice give back the invoice.** -/
theorem loads_modelDump (r : InvoiceResult) :
    loads (dumps (.obj r.modelDump)) = some (.obj r.modelDump) :=
  loads_dumps (plain_modelDump r)

end InvoiceOcr
