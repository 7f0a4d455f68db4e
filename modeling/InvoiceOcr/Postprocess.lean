/-
  File:      InvoiceOcr/Postprocess.lean
  Subject:   POSTPROCESSING (src/pipeline/postprocessor.py, whitelist_index.py).

  * `SubIndex`, `WhitelistIndex`, `build`, `matchKind` -- the whitelist index; a dict is a function of
    its keys; metrics and the reading of the files are left out;
  * `normalizeMoney`, `normalizeDate`, `normalizeQuantity`, `postprocess` -- as the source has them;
  * `Closed` -- whatever an index lets match has a canonical name;
  * **`postprocess_total_iff`** -- postprocessing fails on a quantity that reads as no finite number,
    and on nothing else;
  * `postprocess_fails` -- a quantity `nan`.
-/
import Mathlib.Logic.Function.Basic
import InvoiceOcr.Lists.Loops
import InvoiceOcr.Text.Float
import InvoiceOcr.Worker

namespace InvoiceOcr

open PyJson PyText Async

/-- Library functions on texts. -/
structure Texts where
  /-- `unicodedata.normalize("NFC", s)`. -/
  nfc : Str → Str
  /-- `s.lower()`. -/
  lower : Str → Str
  /-- `process.extractOne(query, choices, scorer=fuzz.WRatio)`: the choice and its score. -/
  extractOne : Str → List Str → Option (Str × Rat)
  /-- `difflib.SequenceMatcher(None, a, b).ratio()`. -/
  ratio : Str → Str → Rat

/-! ## 1. The whitelist index -/

/-- The keys of `_KIND_FILE`. -/
inductive Kind where
  | store
  | product
  deriving DecidableEq, Repr

/-- `_KIND_CUTOFFS`. -/
def kindCutoffs : Kind → Rat × Option Rat
  | .store => (80, some 60)
  | .product => (70, none)

/-- What the index has of one kind. -/
structure SubIndex where
  buckets : Str × Int → List (Str × Str) := fun _ => []
  allLower : List Str := []
  canonicalOf : Str → Option Str := fun _ => none

structure WhitelistIndex where
  sub : Kind → SubIndex

section Index

variable (txt : Texts)

/-- `(lower[:3], len(lower) // 4)`, some buckets further. -/
def bucketKey (lower : Str) (delta : Int) : Str × Int := (lower.take 3, (lower.length / 4 : Nat) + delta)

/-- One name of the loop of `_build_index`. -/
def SubIndex.add (idx : SubIndex) (canonical : Str) : SubIndex :=
  let lower := txt.lower canonical
  if lower = [] then idx
  else
    let key := bucketKey lower 0
    { buckets := Function.update idx.buckets key (idx.buckets key ++ [(lower, canonical)])
      canonicalOf := Function.update idx.canonicalOf lower (some canonical)
      allLower := idx.allLower ++ [lower] }

/-- `_build_index`. -/
def buildIndex (names : List Str) : SubIndex := names.foldl (SubIndex.add txt) {}

/-- `WhitelistIndex.build`, from the names in the files that exist. -/
def build (files : Kind → Option (List Str)) : WhitelistIndex where
  sub kind :=
    match files kind with
    | some names => buildIndex txt names
    | none => {}

/-- `_normalize`, and `_normalize_unicode` of a text that is not empty. -/
def normalize (raw : Str) : Str := strip (txt.nfc raw)

/-- `canonical_of[lower]`. -/
def SubIndex.canonical (idx : SubIndex) (lower : Str) : Except PyExc Str :=
  match idx.canonicalOf lower with
  | some name => .ok name
  | none => .error (.keyError lower)

/-- The best of the choices, if it is good enough; else the text as it was normalized. -/
def SubIndex.best (idx : SubIndex) (choices : List Str) (cutoff : Rat) (lower normalized : Str) :
    Except PyExc Str :=
  match txt.extractOne lower choices with
  | some (choice, score) => if cutoff ≤ score then idx.canonical choice else .ok normalized
  | none => .ok normalized

/-- `_match`. -/
def matchKind (index : WhitelistIndex) (kind : Kind) (raw : Str) : Except PyExc Str :=
  if raw = [] then .ok raw
  else
    let normalized := normalize txt raw
    let lower := txt.lower normalized
    if lower = [] then .ok normalized
    else
      let (primary, fallback) := kindCutoffs kind
      let idx := index.sub kind
      let candidates := [-1, 0, 1].flatMap fun delta => idx.buckets (bucketKey lower delta)
      if candidates = [] then
        match fallback with
        | none => .ok normalized
        | some fallback =>
          if idx.allLower = [] then .ok normalized
          else idx.best txt idx.allLower fallback lower normalized
      else idx.best txt (candidates.map (·.1)) primary lower normalized

end Index

/-! ## 2. The normalizers -/

section Normalizers

variable (txt : Texts) (index : WhitelistIndex)

/-- `_normalize_unicode`. -/
def normalizeUnicode (text : Str) : Str := if text = [] then [] else normalize txt text

/-- `[đĐ₫\s]`. -/
def isCurrency (c : Char) : Bool := c = 'đ' || c = 'Đ' || c = '₫' || PyText.isSpace c

/-- The characters of `"-()"`. -/
def isSign (c : Char) : Bool := c = '-' || c = '(' || c = ')'

/-- `_normalize_money`. -/
def normalizeMoney (value : Str) : Str :=
  if value = [] then []
  else
    let value := (strip value).filter fun c => !isCurrency c
    let isNegative := "-".toList.isPrefixOf value || "(".toList.isPrefixOf value
    let value := strip (stripBy isSign value)
    if value = [] then []
    else
      let value := (value.filter fun c => c ≠ ',').filter fun c => c ≠ '.'
      let value := value.filter isDecimal
      if value = [] then []
      else if isNegative then '-' :: value
      else value

/-- `\d{2}`, and `\d{4}` from two of them. -/
def twoDecimals (a b : Char) : Bool := isDecimal a && isDecimal b

/-- The formats of `_normalize_date`, tried in their order. -/
def reformatDate (s : Str) : Str :=
  match s with
  | [a, b, p, c, d, q, e, f, g, h] =>
    if p = '/' ∧ q = '/' ∧ twoDecimals a b ∧ twoDecimals c d ∧ twoDecimals e f ∧ twoDecimals g h then s
    else if p = '-' ∧ q = '-' ∧ twoDecimals a b ∧ twoDecimals c d ∧ twoDecimals e f ∧ twoDecimals g h then
      [a, b, '/', c, d, '/', e, f, g, h]
    else if p = '.' ∧ q = '.' ∧ twoDecimals a b ∧ twoDecimals c d ∧ twoDecimals e f ∧ twoDecimals g h then
      [a, b, '/', c, d, '/', e, f, g, h]
    -- `YYYY-MM-DD`: the first four characters are the year
    else if d = '-' ∧ f = '-' ∧ twoDecimals a b ∧ twoDecimals p c ∧ twoDecimals q e ∧ twoDecimals g h then
      [g, h, '/', q, e, '/', a, b, p, c]
    else s
  | _ => s

/-- `_normalize_date`. Nothing stripped ends in a newline, which `$` would let pass. -/
def normalizeDate (dateStr : Str) : Str := if dateStr = [] then [] else reformatDate (strip dateStr)

/-- `_normalize_time`. -/
def normalizeTime (timeStr : Str) : Str := if timeStr = [] then [] else strip timeStr

/-- `int(num)`. -/
def intOf : PyFloat → Except PyExc Int
  | .nan => .error (.valueError "cannot convert float NaN to integer".toList)
  | .inf _ => .error (.exception "cannot convert float infinity to integer".toList)
  | .fin neg m e => .ok (if neg then -(wholePart m e : Int) else wholePart m e)

/-- `s.replace(",", ".")`. -/
def commasAsPoints (s : Str) : Str := s.map fun c => if c = ',' then '.' else c

/-- `re.sub(r"[^\d.]", "", s)`. -/
def digitsAndPoints (s : Str) : Str := s.filter fun c => isDecimal c || c = '.'

/-- `_normalize_quantity`; the integer is taken outside the `try`. -/
def normalizeQuantity (qtyStr : Str) : Except PyExc Str :=
  if qtyStr = [] then .ok []
  else
    let s := strip qtyStr
    match parseFloat (commasAsPoints s) with
    | none => .ok (digitsAndPoints s)
    | some num => do
      let n ← intOf num
      if num.isInteger then return intText n else return reprFloat num

/-- `_normalize_product`. -/
def normalizeProduct (p : Product) : Except PyExc Product := do
  let productName ← matchKind txt index .product p.productName
  let productQuantity ← normalizeQuantity p.productQuantity
  return { productId := normalizeUnicode txt p.productId
           productName
           productUnitPrice := normalizeMoney p.productUnitPrice
           productQuantity
           productDiscountMoney := normalizeMoney p.productDiscountMoney
           productTotalMoney := normalizeMoney p.productTotalMoney }

/-- `postprocess`. -/
def postprocess (result : InvoiceResult) : Except PyExc InvoiceResult := do
  let name ← matchKind txt index .store result.name
  let products ← result.products.mapM (normalizeProduct txt index)
  return { name
           type := if result.type = [] then [] else txt.lower (strip result.type)
           date := normalizeDate result.date
           time := normalizeTime result.time
           posId := normalizeUnicode txt result.posId
           receiptNumber := normalizeUnicode txt result.receiptNumber
           cashier := normalizeUnicode txt result.cashier
           totalMoney := normalizeMoney result.totalMoney
           barcode := normalizeUnicode txt result.barcode
           products }

end Normalizers

/-! ## 3. What is matched has a name -/

section Closed

variable {txt : Texts} {idx : SubIndex}

/-- **Whatever may be matched has a canonical name.** -/
structure SubIndex.Closed (idx : SubIndex) : Prop where
  bucket : ∀ key, ∀ x ∈ idx.buckets key, (idx.canonicalOf x.1).isSome = true
  all : ∀ lower ∈ idx.allLower, (idx.canonicalOf lower).isSome = true

/-- `extractOne` answers with one of the choices. -/
def Texts.ExtractsChoice (txt : Texts) : Prop :=
  ∀ query choices x, txt.extractOne query choices = some x → x.1 ∈ choices

theorem closed_empty : SubIndex.Closed {} := ⟨nofun, nofun⟩

theorem add_bucket {name : Str} {key : Str × Int} {x : Str × Str}
    (hx : x ∈ (idx.add txt name).buckets key) :
    x ∈ idx.buckets key ∨ (txt.lower name ≠ [] ∧ x = (txt.lower name, name)) := by
  unfold SubIndex.add at hx
  by_cases hlower : txt.lower name = []
  · simp only [if_pos hlower] at hx
    exact Or.inl hx
  · simp only [if_neg hlower, Function.update_apply] at hx
    split at hx
    · next hkey =>
      rcases List.mem_append.mp hx with hx | hx
      · rw [hkey]
        exact Or.inl hx
      · exact Or.inr ⟨hlower, List.mem_singleton.mp hx⟩
    · exact Or.inl hx

theorem add_allLower {name lower : Str} (h : lower ∈ (idx.add txt name).allLower) :
    lower ∈ idx.allLower ∨ (txt.lower name ≠ [] ∧ lower = txt.lower name) := by
  unfold SubIndex.add at h
  by_cases hlower : txt.lower name = []
  · simp only [if_pos hlower] at h
    exact Or.inl h
  · simp only [if_neg hlower] at h
    rcases List.mem_append.mp h with h | h
    · exact Or.inl h
    · exact Or.inr ⟨hlower, List.mem_singleton.mp h⟩

/-- A name that is added has a canonical name, and so has every other one still. -/
theorem add_canonicalOf {name lower : Str}
    (h : (idx.canonicalOf lower).isSome = true ∨ (txt.lower name ≠ [] ∧ lower = txt.lower name)) :
    ((idx.add txt name).canonicalOf lower).isSome = true := by
  unfold SubIndex.add
  by_cases hlower : txt.lower name = []
  · simp only [if_pos hlower]
    exact h.resolve_right fun hnew => hnew.1 hlower
  · simp only [if_neg hlower, Function.update_apply]
    split
    · rfl
    · next hother => exact h.resolve_right fun hnew => hother hnew.2

/-- STEP: one more name. -/
theorem closed_add (h : idx.Closed) (name : Str) : (idx.add txt name).Closed where
  bucket key x hx := by
    refine add_canonicalOf ?_
    rcases add_bucket hx with hold | ⟨hne, rfl⟩
    · exact Or.inl (h.bucket key x hold)
    · exact Or.inr ⟨hne, rfl⟩
  all lower hmem := by
    refine add_canonicalOf ?_
    rcases add_allLower hmem with hold | hnew
    · exact Or.inl (h.all lower hold)
    · exact Or.inr hnew

theorem closed_buildIndex (names : List Str) : (buildIndex txt names).Closed := by
  have hfold : ∀ idx : SubIndex, idx.Closed → (names.foldl (SubIndex.add txt) idx).Closed := by
    induction names with
    | nil => exact fun _ h => h
    | cons name names ih => exact fun idx h => ih _ (closed_add h name)
  exact hfold {} closed_empty

/-- Every built index is closed. -/
theorem closed_build (files : Kind → Option (List Str)) (kind : Kind) :
    ((build txt files).sub kind).Closed := by
  unfold build
  cases hfiles : files kind with
  | none => simpa [hfiles] using closed_empty
  | some names => simpa [hfiles] using closed_buildIndex names

theorem best_ok {choices : List Str} (hlib : txt.ExtractsChoice)
    (hnamed : ∀ lower ∈ choices, (idx.canonicalOf lower).isSome = true) (cutoff : Rat)
    (lower normalized : Str) : ∃ name, idx.best txt choices cutoff lower normalized = .ok name := by
  unfold SubIndex.best
  cases hbest : txt.extractOne lower choices with
  | none => exact ⟨normalized, rfl⟩
  | some x =>
    obtain ⟨choice, score⟩ := x
    have hchoice := hnamed choice (hlib lower choices _ hbest)
    simp only
    by_cases hscore : cutoff ≤ score
    · rw [if_pos hscore]
      unfold SubIndex.canonical
      obtain ⟨name, hname⟩ := Option.isSome_iff_exists.mp hchoice
      exact ⟨name, by rw [hname]⟩
    · rw [if_neg hscore]
      exact ⟨normalized, rfl⟩

/-- **Matching does not fail** on a closed index. -/
theorem matchKind_ok {index : WhitelistIndex} (hlib : txt.ExtractsChoice) {kind : Kind}
    (hclosed : (index.sub kind).Closed) (raw : Str) :
    ∃ name, matchKind txt index kind raw = .ok name := by
  unfold matchKind
  by_cases hraw : raw = []
  · exact ⟨raw, by rw [if_pos hraw]⟩
  rw [if_neg hraw]
  simp only
  by_cases hlower : txt.lower (normalize txt raw) = []
  · exact ⟨_, by rw [if_pos hlower]⟩
  rw [if_neg hlower]
  split
  · split
    · exact ⟨_, rfl⟩
    · split
      · exact ⟨_, rfl⟩
      · exact best_ok hlib hclosed.all _ _ _
  · refine best_ok hlib (fun lower hmem => ?_) _ _ _
    obtain ⟨x, hx, rfl⟩ := List.mem_map.mp hmem
    obtain ⟨delta, -, hx⟩ := List.mem_flatMap.mp hx
    exact hclosed.bucket _ x hx

end Closed

/-! ## 4. What fails -/

section Total

variable {txt : Texts} {index : WhitelistIndex}

/-- The quantity reads as no float, or as a finite one. -/
def FiniteQuantity (qtyStr : Str) : Prop :=
  ∀ x, parseFloat (commasAsPoints (strip qtyStr)) = some x → x.isFinite = true

theorem normalizeQuantity_ok_iff (q : Str) :
    (∃ text, normalizeQuantity q = .ok text) ↔ FiniteQuantity q := by
  unfold normalizeQuantity FiniteQuantity
  by_cases hq : q = []
  · subst hq
    exact ⟨fun _ x hx => (by cases hx), fun _ => ⟨[], rfl⟩⟩
  rw [if_neg hq]
  simp only
  cases hread : parseFloat (commasAsPoints (strip q)) with
  | none => exact ⟨fun _ x hx => (by simp at hx), fun _ => ⟨_, rfl⟩⟩
  | some num =>
    have hfinite : (∀ x, some num = some x → x.isFinite = true) ↔ num.isFinite = true :=
      ⟨fun h => h num rfl, fun h x hx => Option.some.inj hx ▸ h⟩
    rw [hfinite]
    cases num with
    | nan => exact ⟨fun ⟨_, h⟩ => (by cases h), fun h => (by cases h)⟩
    | inf neg => exact ⟨fun ⟨_, h⟩ => (by cases h), fun h => (by cases h)⟩
    | fin neg m e =>
      refine ⟨fun _ => rfl, fun _ => ?_⟩
      simp only [intOf, bind, Except.bind]
      split
      · exact ⟨_, rfl⟩
      · exact ⟨_, rfl⟩

theorem normalizeProduct_ok_iff (hmatch : ∀ raw, ∃ name, matchKind txt index .product raw = .ok name)
    (p : Product) :
    (∃ p', normalizeProduct txt index p = .ok p') ↔ FiniteQuantity p.productQuantity := by
  rw [← normalizeQuantity_ok_iff]
  obtain ⟨name, hname⟩ := hmatch p.productName
  unfold normalizeProduct
  rw [hname]
  cases hq : normalizeQuantity p.productQuantity with
  | error e => exact ⟨fun ⟨_, h⟩ => (by cases h), fun ⟨_, h⟩ => (by cases h)⟩
  | ok text => exact ⟨fun _ => ⟨text, rfl⟩, fun _ => ⟨_, rfl⟩⟩

/-- What a quantity raises is no error of the program's own. -/
theorem normalizeQuantity_error {q : Str} {e : PyExc} (h : normalizeQuantity q = .error e) :
    e.isOCRSystemError = false := by
  unfold normalizeQuantity at h
  split at h
  · cases h
  · simp only at h
    split at h
    · cases h
    · next num hread =>
      cases num with
      | nan => cases h; rfl
      | inf neg => cases h; rfl
      | fin neg m e =>
        simp only [intOf, bind, Except.bind] at h
        split at h
        · cases h
        · cases h

theorem postprocess_error (hmatch : ∀ kind raw, ∃ name, matchKind txt index kind raw = .ok name)
    {raw : InvoiceResult} {e : PyExc} (h : postprocess txt index raw = .error e) :
    e.isOCRSystemError = false := by
  obtain ⟨name, hname⟩ := hmatch .store raw.name
  unfold postprocess at h
  rw [hname] at h
  cases hproducts : raw.products.mapM (normalizeProduct txt index) with
  | ok products =>
    rw [hproducts] at h
    cases h
  | error e' =>
    rw [hproducts] at h
    cases h
    obtain ⟨p, -, hp⟩ := Loops.mapM_error hproducts
    obtain ⟨productName, hproduct⟩ := hmatch .product p.productName
    unfold normalizeProduct at hp
    rw [hproduct] at hp
    cases hq : normalizeQuantity p.productQuantity with
    | ok text =>
      rw [hq] at hp
      cases hp
    | error e' =>
      rw [hq] at hp
      cases hp
      exact normalizeQuantity_error hq

theorem postprocess_ok_iff (hmatch : ∀ kind raw, ∃ name, matchKind txt index kind raw = .ok name)
    (raw : InvoiceResult) : (∃ final, postprocess txt index raw = .ok final) ↔
      ∀ p ∈ raw.products, FiniteQuantity p.productQuantity := by
  have hproducts : (∃ products, raw.products.mapM (normalizeProduct txt index) = .ok products) ↔
      ∀ p ∈ raw.products, FiniteQuantity p.productQuantity := by
    rw [Loops.mapM_ok_iff]
    exact forall₂_congr fun p _ => normalizeProduct_ok_iff (hmatch .product) p
  obtain ⟨name, hname⟩ := hmatch .store raw.name
  rw [← hproducts]
  unfold postprocess
  rw [hname]
  cases raw.products.mapM (normalizeProduct txt index) with
  | error e => exact ⟨fun ⟨_, h⟩ => (by cases h), fun ⟨_, h⟩ => (by cases h)⟩
  | ok products => exact ⟨fun _ => ⟨products, rfl⟩, fun _ => ⟨_, rfl⟩⟩

/-- What is left of a lifecycle that has its invoice raises at once, and the last handler ends the job
    as `lifecycle_uncaught`. -/
def EndsUncaught (wk : Worker) (jobId : Uuid) (imageUrl : Json) (raw : InvoiceResult) : Prop :=
  ∃ e, finish wk jobId imageUrl raw = .raise e ∧
    lifecycleHandler jobId e =
      (fail jobId false "lifecycle_uncaught".toList e.str).tryCatch fun _ => .ret ()

/-- **When postprocessing fails**: on a quantity that is no finite number, with every index, and the job
    ends uncaught on these quantities only. -/
theorem postprocess_total_iff (hlib : txt.ExtractsChoice) (files : Kind → Option (List Str))
    (raw : InvoiceResult) :
    ((∃ final, postprocess txt (build txt files) raw = .ok final) ↔
      ∀ p ∈ raw.products, FiniteQuantity p.productQuantity) ∧
    ∀ wk : Worker, wk.postprocess = postprocess txt (build txt files) → ∀ jobId imageUrl,
      (¬ EndsUncaught wk jobId imageUrl raw ↔ ∀ p ∈ raw.products, FiniteQuantity p.productQuantity) := by
  have hmatch : ∀ kind raw, ∃ name, matchKind txt (build txt files) kind raw = .ok name :=
    fun kind raw => matchKind_ok hlib (closed_build files kind) raw
  have hok := postprocess_ok_iff hmatch raw
  refine ⟨hok, fun wk hwk jobId imageUrl => ?_⟩
  rw [← hok]
  unfold EndsUncaught finish
  rw [hwk]
  cases hfinal : postprocess txt (build txt files) raw with
  | ok final => exact ⟨fun _ => ⟨final, rfl⟩, fun _ ⟨e, he, _⟩ => by cases he⟩
  | error e =>
    have hplain := postprocess_error hmatch hfinal
    refine ⟨fun hno => absurd ⟨e, rfl, ?_⟩ hno, fun ⟨_, he⟩ => by simp at he⟩
    unfold lifecycleHandler
    rw [hplain]
    rfl

end Total

namespace Sample

/-- Texts in ASCII, and a scorer that knows equal ones only. -/
def texts : Texts where
  nfc s := s
  lower s := s.map Char.toLower
  extractOne query choices := if choices.contains query then some (query, 100) else none
  ratio a b := if a = b then 1 else 0

theorem extractsChoice_texts : texts.ExtractsChoice := by
  intro query choices x h
  unfold texts at h
  simp only at h
  split at h
  · next hmem =>
    cases h
    exact List.contains_iff_mem.mp hmem
  · simp at h

/-- Two names in each whitelist. -/
def files (_ : Kind) : Option (List Str) := some ["Aeon".toList, "BigC".toList]

/-- An invoice of one product with this quantity. -/
def bought (quantity : Str) : InvoiceResult :=
  { name := "AEON".toList, products := [{ productName := "Tea".toList, productQuantity := quantity }] }

end Sample

/-- A quantity `nan`. -/
theorem postprocess_fails : ∃ (txt : Texts) (files : Kind → Option (List Str)) (raw : InvoiceResult),
    txt.ExtractsChoice ∧ ¬ ∃ final, postprocess txt (build txt files) raw = .ok final := by
  refine ⟨Sample.texts, Sample.files, Sample.bought "nan".toList, Sample.extractsChoice_texts, ?_⟩
  intro ⟨final, h⟩
  have hnone : (postprocess Sample.texts (build Sample.texts Sample.files)
      (Sample.bought "nan".toList)).isOk = false := by decide +kernel
  rw [h] at hnone
  cases hnone

/-- Weighed goods. -/
theorem postprocess_total_weighed :
    ∃ final, postprocess Sample.texts (build Sample.texts Sample.files)
      (Sample.bought "4,878kg".toList) = .ok final := by
  refine ((postprocess_total_iff Sample.extractsChoice_texts Sample.files _).1).mpr ?_
  intro p hp x hx
  rw [List.mem_singleton.mp hp] at hx
  have hnone : parseFloat (commasAsPoints (strip "4,878kg".toList)) = none := by decide +kernel
  cases hnone.symm.trans hx

end InvoiceOcr
