/-
  File:      InvoiceOcr/Rebuild.lean
  Subject:   REBUILDING THE WHITELISTS (src/scripts/extract_whitelist.py), and matching a name of the
             rebuilt list against it.

  * `extractWhitelist` -- the two lists `main` writes for label records; the counts it prints are
    left out, and so are the files;
  * `lastNamed_sorted` -- in a sorted list the last of several spellings is the greatest;
  * **`rebuilt_keeps_iff`** -- a store name is matched to itself exactly when no name of the list
    with the same lower case sorts after it;
  * **`rebuilt_renames`** -- of two spellings that differ in case one is matched to the other.
-/
import Mathlib.Data.Char
import Mathlib.Data.List.Lex
import Mathlib.Data.List.Sort
import InvoiceOcr.Whitelist

namespace InvoiceOcr

open PyJson PyText Async

/-! ## 1. The script -/

/-- `bool(v)`. -/
def truthy : Json → Bool
  | .null => false
  | .bool b => b
  | .num lexeme =>
    match parseFloat lexeme with
    | some (.fin _ 0 _) => false
    | _ => true
  | .str s => !s.isEmpty
  | .arr xs => !xs.isEmpty
  | .obj kvs => !kvs.isEmpty

/-- `type(v).__name__`. -/
def typeName : Json → Str
  | .null => "NoneType".toList
  | .bool _ => "bool".toList
  | .num lexeme => if lexeme.all fun c => c.isDigit || c = '-' then "int".toList else "float".toList
  | .str _ => "str".toList
  | .arr _ => "list".toList
  | .obj _ => "dict".toList

/-- A value is hashed, as a key or for a test of membership in a set. -/
def hashed (v : Json) : Except PyExc Unit :=
  match v with
  | .arr _ => .error (.typeError ("unhashable type: '".toList ++ typeName v ++ "'".toList))
  | .obj _ => .error (.typeError ("unhashable type: '".toList ++ typeName v ++ "'".toList))
  | _ => .ok ()

section Script

variable (txt : Texts)

/-- `nfc`. -/
def nfc (v : Json) : Except PyExc Str :=
  match v with
  | .str s => .ok (txt.nfc (strip s))
  | v => .error (.attributeError
      ("'".toList ++ typeName v ++ "' object has no attribute 'strip'".toList))

/-- `r.get("_verify_status") in allowed_statuses`. -/
def statusAllowed (allowed : List Str) (r : Dict) : Except PyExc Bool := do
  let status := (Dict.get? r "_verify_status".toList).getD .null
  hashed status
  match status with
  | .str s => return allowed.contains s
  | _ => return false

/-- `usable`; no filter stands for `--include-all`. -/
def usableRecords (filter : Option (List Str)) (records : List Dict) : Except PyExc (List Dict) :=
  match filter with
  | none => .ok records
  | some allowed => records.filterM (statusAllowed allowed)

/-- What a loop over `rec.get("products") or []` goes through. -/
def productsOf (r : Dict) : Except PyExc (List Json) :=
  let products := (Dict.get? r "products".toList).getD .null
  if truthy products then
    match products with
    | .arr xs => .ok xs
    | .str s => .ok (s.map fun c => .str [c])
    | .obj kvs => .ok (kvs.map fun kv => .str kv.1)
    | v => .error (.typeError ("'".toList ++ typeName v ++ "' object is not iterable".toList))
  else .ok []

/-- A name that is there goes into its set, and is counted under the type of the record. -/
def addName (type name : Json) (names : List Str) : Except PyExc (List Str) :=
  if truthy name then do
    let name ← nfc txt name
    hashed type
    return names.insert name
  else .ok names

/-- The names of one record. -/
def collectRecord (sets : List Str × List Str) (r : Dict) : Except PyExc (List Str × List Str) := do
  let type := (Dict.get? r "type".toList).getD (.str "unknown".toList)
  let stores ← addName txt type ((Dict.get? r "name".toList).getD (.str [])) sets.1
  let products ← (← productsOf r).foldlM (fun names p =>
    match p with
    | .obj p => addName txt type ((Dict.get? p "product_name".toList).getD (.str [])) names
    | _ => .ok names) sets.2
  return (stores, products)

/-- `sorted` of a set of texts, by code points. -/
def sortedTexts (names : List Str) : List Str := names.insertionSort (· ≤ ·)

/-- `store_list` and `product_list`. -/
def extractWhitelist (filter : Option (List Str)) (records : List Dict) :
    Except PyExc (List Str × List Str) := do
  let (stores, products) ← (← usableRecords filter records).foldlM (collectRecord txt) ([], [])
  return (sortedTexts stores, sortedTexts products)

end Script

/-! ## 2. The names of the list -/

section Names

variable {txt : Texts}

/-- A trimmed text in NFC. -/
def IsNfcName (txt : Texts) (name : Str) : Prop := ∃ s, name = txt.nfc (strip s)

theorem addName_isNfcName {type name : Json} {names names' : List Str}
    (h : addName txt type name names = .ok names') (hnames : ∀ n ∈ names, IsNfcName txt n) :
    ∀ n ∈ names', IsNfcName txt n := by
  unfold addName at h
  split at h
  · obtain ⟨added, hadded, h⟩ := Proc.bind_eq_ok h
    obtain ⟨_, _, h⟩ := Proc.bind_eq_ok h
    obtain rfl : names.insert added = names' := Except.ok.inj h
    intro n hn
    rcases List.mem_insert_iff.mp hn with rfl | hn
    · cases name with
      | str s => exact ⟨s, (Except.ok.inj hadded).symm⟩
      | _ => simp [nfc] at hadded
    · exact hnames n hn
  · obtain rfl : names = names' := Except.ok.inj h
    exact hnames

/-- STEP: one record. -/
theorem collectRecord_isNfcName {sets sets' : List Str × List Str} {r : Dict}
    (h : collectRecord txt sets r = .ok sets') (hnames : ∀ n ∈ sets.1, IsNfcName txt n) :
    ∀ n ∈ sets'.1, IsNfcName txt n := by
  unfold collectRecord at h
  obtain ⟨stores, hstores, h⟩ := Proc.bind_eq_ok h
  obtain ⟨_, _, h⟩ := Proc.bind_eq_ok h
  obtain ⟨_, _, h⟩ := Proc.bind_eq_ok h
  have hsets := Except.ok.inj h
  rw [← hsets]
  exact addName_isNfcName hstores hnames

/-- RUN: all records. -/
theorem foldlM_isNfcName {records : List Dict} {sets sets' : List Str × List Str}
    (h : records.foldlM (collectRecord txt) sets = .ok sets')
    (hnames : ∀ n ∈ sets.1, IsNfcName txt n) : ∀ n ∈ sets'.1, IsNfcName txt n :=
  Loops.foldlM_rule (P := fun _ sets => ∀ n ∈ sets.1, IsNfcName txt n) hnames
    (fun _ _ _ _ hround hnames => collectRecord_isNfcName hround hnames) h

/-- **What the script writes for stores**: trimmed texts in NFC, in the order of their code points. -/
theorem extractWhitelist_stores {filter : Option (List Str)} {records : List Dict}
    {stores products : List Str} (h : extractWhitelist txt filter records = .ok (stores, products)) :
    (∀ n ∈ stores, IsNfcName txt n) ∧ stores.Pairwise (· ≤ ·) := by
  unfold extractWhitelist at h
  obtain ⟨usable, _, h⟩ := Proc.bind_eq_ok h
  obtain ⟨sets, hsets, h⟩ := Proc.bind_eq_ok h
  obtain rfl : sortedTexts sets.1 = stores := congrArg Prod.fst (Except.ok.inj h)
  have hnames := foldlM_isNfcName hsets (by simp)
  exact ⟨fun n hn => hnames n ((List.mem_insertionSort _).mp hn), List.pairwise_insertionSort _ _⟩

end Names

/-! ## 3. Matching what was rebuilt -/

section Rebuilt

variable {txt : Texts} {score : Str → Str → Rat} {names : List Str} {lower name : Str}

/-- **In a sorted list the last name of a spelling is the greatest.** -/
theorem lastNamed_sorted (hsorted : names.Pairwise (· ≤ ·))
    (h : lastNamed txt names lower = some name) {m : Str} (hm : m ∈ entries txt names)
    (hlower : txt.lower m = lower) : m ≤ name := by
  have hentries : (entries txt names).reverse.Pairwise fun a b => b ≤ a :=
    List.pairwise_reverse.mpr (hsorted.filter _)
  obtain ⟨_, before, after, hsplit, hbefore⟩ := List.find?_eq_some_iff_append.mp h
  rw [← List.mem_reverse, hsplit] at hm
  rw [hsplit] at hentries
  rcases List.mem_append.mp hm with hm | hm
  · exact absurd hlower (by simpa using hbefore m hm)
  · rcases List.mem_cons.mp hm with heq | hm
    · exact le_of_eq heq
    · exact (List.pairwise_cons.mp (List.pairwise_append.mp hentries).2.1).1 m hm

/-- NFC leaves a trimmed text trimmed. -/
def Texts.NfcTrims (txt : Texts) : Prop := ∀ s, strip (txt.nfc (strip s)) = txt.nfc (strip s)

/-- The index built from the two rebuilt lists. -/
def rebuiltIndex (txt : Texts) (stores products : List Str) : WhitelistIndex :=
  build txt fun kind =>
    match kind with
    | .store => some stores
    | .product => some products

/-- **When a rebuilt list keeps a store name**: exactly when none of its names with the same lower
    case sorts after it. -/
theorem rebuilt_keeps_iff (hscored : txt.Scored score) (hexact : ExactHundred score)
    (hempty : txt.KeepsEmpty) (hnfc : txt.NfcStable) (htrims : txt.NfcTrims)
    {filter : Option (List Str)} {records : List Dict} {stores products : List Str}
    (hlists : extractWhitelist txt filter records = .ok (stores, products)) {n : Str}
    (hn : n ∈ stores) (hblank : strip n ≠ []) :
    matchKind txt (rebuiltIndex txt stores products) .store n = .ok n ↔
      ∀ m ∈ stores, txt.lower m = txt.lower n → m ≤ n := by
  obtain ⟨hnames, hsorted⟩ := extractWhitelist_stores hlists
  obtain ⟨s, hs⟩ := hnames n hn
  have hnormal : normalize txt n = n := by
    unfold normalize
    rw [hs, hnfc.idem, htrims]
  have hentry : n ∈ entries txt stores := by
    refine mem_entries.mpr ⟨hn, fun hlower => hblank ?_⟩
    rw [(hempty.lower n).mp hlower]
    rfl
  have hidx : ((rebuiltIndex txt stores products).sub .store).Represents txt stores :=
    represents_buildIndex stores
  obtain ⟨out, hout, hexit⟩ := matchTier_exit hscored hidx n
  have hlast := hexit.self hscored hexact hempty hnormal hentry
  rw [matchKind_eq_matchTier, hout]
  constructor
  · intro hkeep m hm hlower
    obtain rfl : out.2 = n := Except.ok.inj hkeep
    refine lastNamed_sorted hsorted hlast (mem_entries.mpr ⟨hm, ?_⟩) hlower
    rw [hlower]
    exact (mem_entries.mp hentry).2
  · intro hgreatest
    obtain ⟨hmem, hlower⟩ := lastNamed_some hlast
    have hle := hgreatest _ (mem_entries.mp hmem).1 hlower
    have hge := lastNamed_sorted hsorted hlast hentry rfl
    show Except.ok out.2 = .ok n
    rw [le_antisymm hle hge]

end Rebuilt

namespace Sample

theorem nfcTrims (score : Str → Str → Rat) : (scoring score).NfcTrims := fun _ => strip_strip

/-- A verified label of a store of this name. -/
def storeLabel (name : Str) : Dict :=
  [("_verify_status".toList, .str "verified_ok".toList), ("name".toList, .str name)]

/-- Two spellings of one store. -/
def storeLabels : List Dict := [storeLabel "Co.opmart".toList, storeLabel "CO.OPMART ".toList]

def storeList : List Str := ["CO.OPMART".toList, "Co.opmart".toList]

theorem extractWhitelist_storeLabels :
    extractWhitelist (scoring exactScore) (some ["verified_ok".toList, "corrected".toList])
      storeLabels = .ok (storeList, []) := by decide +kernel

end Sample

theorem rebuilt_keeps_iff_spelling :
    matchKind (Sample.scoring Sample.exactScore)
      (rebuiltIndex (Sample.scoring Sample.exactScore) Sample.storeList []) .store
        "Co.opmart".toList = .ok "Co.opmart".toList ↔
      ∀ m ∈ Sample.storeList, (Sample.scoring Sample.exactScore).lower m =
        (Sample.scoring Sample.exactScore).lower "Co.opmart".toList → m ≤ "Co.opmart".toList :=
  rebuilt_keeps_iff Sample.scored_exact Sample.exactHundred (Sample.keepsEmpty _)
    (Sample.nfcStable _) (Sample.nfcTrims _) Sample.extractWhitelist_storeLabels
    (by decide +kernel) (by decide +kernel)

/-- **A rebuilt list renames one of its own stores**: of two spellings that differ in case the one
    that sorts first is matched to the other. -/
theorem rebuilt_renames :
    ¬ ∀ (txt : Texts) (score : Str → Str → Rat), txt.Scored score → ExactHundred score →
      txt.KeepsEmpty → txt.NfcStable → txt.NfcTrims →
      ∀ (filter : Option (List Str)) (records : List Dict) (stores products : List Str),
        extractWhitelist txt filter records = .ok (stores, products) →
        ∀ n ∈ stores, strip n ≠ [] →
          matchKind txt (rebuiltIndex txt stores products) .store n = .ok n := by
  intro h
  have hkept := h _ _ Sample.scored_exact Sample.exactHundred (Sample.keepsEmpty _)
    (Sample.nfcStable _) (Sample.nfcTrims _) _ _ _ _ Sample.extractWhitelist_storeLabels
    "CO.OPMART".toList (by decide +kernel) (by decide +kernel)
  exact absurd hkept (by decide +kernel)

end InvoiceOcr
