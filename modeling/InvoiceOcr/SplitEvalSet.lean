/-
  File:      InvoiceOcr/SplitEvalSet.lean
  Subject:   THE SPLIT OF THE LABELS INTO A DEV AND A TEST SET (scripts/split_eval_set.py).

  * `splitItems` -- `main` up to the two lists; `splitEvalSet` -- the files it writes. What it prints
    is left out;
  * `usable` -- which records are split; `share` -- how many of a type the test set has;
  * `dealType_stratified`, `dealTypes_stratified` -- one type, and all of them;
  * **`split_stratified`** -- for a ratio between 0 and 1 and whatever the shuffles do, the two lists
    are a stratified partition of the usable records, and the script fails on no record it can read;
  * **`splitEvalSet_files`** -- the files have each usable record once.
-/
import Mathlib.Data.Rat.Floor
import InvoiceOcr.Lists.Strata
import InvoiceOcr.Rebuild

namespace InvoiceOcr

open PyJson PyText Async Strata

namespace EvalSet

/-! ## 1. The script -/

/-- A record and its place in the file. -/
abbrev Item := Nat × Dict

def uncorrectableIdx : List Nat := [161, 589, 699, 765, 778, 1183]

def usableStatuses : List Str := ["verified_ok".toList, "corrected".toList]

/-- `not str(v or "").strip()`. No value but a text is blank and true. -/
def blank : Json → Bool
  | .str s => (strip s).isEmpty
  | v => !truthy v

/-- `_is_missing_critical`. -/
def isMissingCritical (inv : Dict) : Bool :=
  ["date", "receipt_number", "total_money"].any fun f => blank ((Dict.get? inv f.toList).getD .null)

def enumerate (records : List Dict) : List Item := records.zipIdx.map Prod.swap

/-- One round of the loop that builds `usable`: whether the record is appended. -/
def isUsable (x : Item) : Except PyExc Bool :=
  if uncorrectableIdx.contains x.1 then .ok false
  else do
    if ← statusAllowed usableStatuses x.2 then return !isMissingCritical x.2 else return false

/-- `usable`. -/
def usableItems (records : List Dict) : Except PyExc (List Item) :=
  (enumerate records).foldlM (fun usable x => do
    return if ← isUsable x then usable ++ [x] else usable) []

section Script

variable {σ : Type} (txt : Texts) (rng : Rng σ Item) (ratio : Rat)

/-- `(rec.get("type") or "unknown").lower()`. -/
def storeType (rec : Dict) : Except PyExc Str :=
  let type := (Dict.get? rec "type".toList).getD .null
  if truthy type then
    match type with
    | .str s => .ok (txt.lower s)
    | v => .error (.attributeError
        ("'".toList ++ typeName v ++ "' object has no attribute 'lower'".toList))
  else .ok (txt.lower "unknown".toList)

/-- `by_type`. -/
def byType (usable : List Item) : Except PyExc (List (Str × List Item)) :=
  usable.foldlM (fun groups x => do return put (← storeType txt x.2) x groups) []

/-- `sorted(by_type.items())`; no two keys are equal. -/
def sortedTypes (groups : List (Str × List Item)) : List (Str × List Item) :=
  groups.insertionSort fun a b => a.1 ≤ b.1

/-- `n_test`. -/
def nTest (type : Str) (nTotal : Nat) : Int :=
  if type = "coopxtra".toList then max 2 (nTotal * ratio : Rat).floor
  else (nTotal * ratio : Rat).floor

/-- The generator and the two lists. -/
structure Dealt (σ : Type) where
  rng : σ
  dev : List Item := []
  test : List Item := []

/-- One round of the loop over the types. -/
def dealType (st : Dealt σ) (g : Str × List Item) : Dealt σ :=
  let (items, s) := rng.shuffle st.rng g.2
  let nTotal := items.length
  let nDev := nTotal - nTest ratio g.1 nTotal
  ⟨s, st.dev ++ sliceTo nDev items, st.test ++ sliceFrom nDev items⟩

/-- `main` up to the two lists. -/
def splitItems (seed : σ) (records : List Dict) : Except PyExc (List Item × List Item) := do
  let groups ← byType txt (← usableItems records)
  let st := (sortedTypes groups).foldl (dealType rng ratio) ⟨seed, [], []⟩
  if (st.dev.map Prod.fst).any (st.test.map Prod.fst).contains then
    .error (.exception "BUG: dev/test overlap!".toList)
  else
    let (dev, s) := rng.shuffle st.rng st.dev
    return (dev, (rng.shuffle s st.test).1)

/-- A row of split_meta.csv. -/
def metaRow (split : String) (x : Item) : Dict :=
  let get (k : String) := (Dict.get? x.2 k.toList).getD (.str [])
  [("golden_index".toList, .num (natStr x.1)),
   ("type".toList, get "type"),
   ("split".toList, .str split.toList),
   ("file_url".toList, get "file"),
   ("verify_status".toList, get "_verify_status")]

/-- The files: dev_set.json, test_set.json and the rows of split_meta.csv. -/
structure SplitFiles where
  devSet : List Dict
  testSet : List Dict
  splitMeta : List Dict

/-- `main`. -/
def splitEvalSet (seed : σ) (records : List Dict) : Except PyExc SplitFiles := do
  let (dev, test) ← splitItems txt rng ratio seed records
  return ⟨dev.map Prod.snd, test.map Prod.snd, dev.map (metaRow "dev") ++ test.map (metaRow "test")⟩

end Script

/-! ## 2. What is split -/

def status (rec : Dict) : Json := (Dict.get? rec "_verify_status".toList).getD .null

def hasStatus (rec : Dict) : Bool :=
  match status rec with
  | .str s => usableStatuses.contains s
  | _ => false

/-- **The record is usable.** -/
def usable (x : Item) : Bool :=
  !uncorrectableIdx.contains x.1 && hasStatus x.2 && !isMissingCritical x.2

/-- **The script can read the record**: a status it looks at is no list and no dict, and the type of a
    usable record is a text, if it is true. -/
structure Readable (x : Item) : Prop where
  status : uncorrectableIdx.contains x.1 = false → hashed (status x.2) = .ok ()
  type : usable x = true → ∀ v, Dict.get? x.2 "type".toList = some v → truthy v = true → ∃ s, v = .str s

/-- How many of `n` records of a type the test set has. -/
def share (ratio : Rat) (type : Str) (n : Nat) : Nat :=
  if type = "coopxtra".toList then min n (max 2 ⌊n * ratio⌋₊) else ⌊n * ratio⌋₊

/-- The lower-cased type of a record. -/
def typeOf (txt : Texts) (x : Item) : Option Str := (storeType txt x.2).toOption

/-! ## 3. The records that are split -/

section Usable

variable {txt : Texts} {records : List Dict}

theorem statusAllowed_eq (rec : Dict) :
    statusAllowed usableStatuses rec = (hashed (status rec)).map fun _ => hasStatus rec := by
  unfold statusAllowed hasStatus status
  cases (Dict.get? rec "_verify_status".toList).getD .null <;> rfl

/-- The filter lets a record through exactly if it is usable, where it can read its status. -/
theorem isUsable_eq (x : Item) : isUsable x =
    if uncorrectableIdx.contains x.1 then .ok (usable x)
    else (hashed (status x.2)).map fun _ => usable x := by
  unfold isUsable usable
  cases uncorrectableIdx.contains x.1 with
  | true => rfl
  | false =>
    simp only [Bool.false_eq_true, if_false, statusAllowed_eq]
    cases hashed (status x.2) with
    | error e => rfl
    | ok _ => cases hasStatus x.2 <;> rfl

theorem isUsable_ok {x : Item} {b : Bool} (h : isUsable x = .ok b) : b = usable x := by
  rw [isUsable_eq] at h
  split at h
  · exact (Except.ok.inj h).symm
  · cases hhash : hashed (status x.2) with
    | error e =>
      rw [hhash] at h
      cases h
    | ok _ =>
      rw [hhash] at h
      exact (Except.ok.inj h).symm

theorem isUsable_ok_iff {x : Item} : (∃ b, isUsable x = .ok b) ↔
    (uncorrectableIdx.contains x.1 = false → hashed (status x.2) = .ok ()) := by
  rw [isUsable_eq]
  cases uncorrectableIdx.contains x.1 with
  | true => exact ⟨fun _ => nofun, fun _ => ⟨_, rfl⟩⟩
  | false =>
    cases hashed (status x.2) with
    | error e => exact ⟨fun ⟨_, h⟩ => (by cases h), fun h => (by cases h rfl)⟩
    | ok _ => exact ⟨fun _ _ => rfl, fun _ => ⟨_, rfl⟩⟩

theorem usableItems_eq {xs : List Item} (h : usableItems records = .ok xs) :
    xs = (enumerate records).filter usable := by
  refine Loops.foldlM_rule (P := fun done xs => xs = done.filter usable) rfl
    (fun done xs x xs' hround hxs => ?_) h
  obtain ⟨b, hb, hround⟩ := Proc.bind_eq_ok hround
  obtain rfl := isUsable_ok hb
  rw [← Except.ok.inj hround]
  rw [List.filter_append, hxs]
  cases hx : usable x <;> simp [hx]

theorem usableItems_ok_iff : (∃ xs, usableItems records = .ok xs) ↔
    ∀ x ∈ enumerate records, ∃ b, isUsable x = .ok b :=
  Loops.foldlM_ok_iff

/-- The places of the records are their own. -/
theorem nodup_enumerate (records : List Dict) : ((enumerate records).map Prod.fst).Nodup := by
  have hplaces : (enumerate records).map Prod.fst = List.range' 0 records.length := by
    unfold enumerate
    rw [List.map_map]
    exact List.zipIdx_map_snd ..
  rw [hplaces]
  exact List.nodup_range'

theorem storeType_ok_iff {rec : Dict} : (∃ type, storeType txt rec = .ok type) ↔
    ∀ v, Dict.get? rec "type".toList = some v → truthy v = true → ∃ s, v = .str s := by
  unfold storeType
  cases Dict.get? rec "type".toList with
  | none => exact ⟨fun _ => nofun, fun _ => ⟨_, rfl⟩⟩
  | some v =>
    simp only [Option.getD_some, Option.some.injEq, forall_eq']
    cases v with
    | str s => exact ⟨fun _ _ => ⟨s, rfl⟩, fun _ => by split <;> exact ⟨_, rfl⟩⟩
    | _ =>
      split
      · next htrue =>
        refine ⟨fun ⟨_, h⟩ => (by cases h), fun h => ?_⟩
        obtain ⟨_, hs⟩ := h htrue
        cases hs
      · next hfalse => exact ⟨fun _ htrue => absurd htrue hfalse, fun _ => ⟨_, rfl⟩⟩

theorem byType_ok_iff {xs : List Item} : (∃ groups, byType txt xs = .ok groups) ↔
    ∀ x ∈ xs, ∃ type, storeType txt x.2 = .ok type :=
  Loops.foldlM_ok_iff (f := fun x : Item => storeType txt x.2)

theorem byType_grouped {xs : List Item} {groups : List (Str × List Item)}
    (h : byType txt xs = .ok groups) : Grouped (typeOf txt) xs groups := by
  refine Loops.foldlM_rule grouped_nil (fun done groups x groups' hround hgroups => ?_) h
  obtain ⟨type, htype, hround⟩ := Proc.bind_eq_ok hround
  rw [← Except.ok.inj hround]
  refine hgroups.put ?_
  unfold typeOf
  rw [htype]
  rfl

theorem sortedTypes_grouped {xs : List Item} {groups : List (Str × List Item)}
    (h : Grouped (typeOf txt) xs groups) : Grouped (typeOf txt) xs (sortedTypes groups) :=
  h.reorder (List.perm_insertionSort _ _)

end Usable

/-! ## 4. The split of them -/

section Dealt

variable {σ : Type} {txt : Texts} {rng : Rng σ Item} {ratio : Rat}

theorem share_zero (type : Str) : share ratio type 0 = 0 := by
  unfold share
  split <;> simp

/-- What is asked for of `n` records, in whole numbers: all of them at most, or two of one. -/
theorem nTest_cases (hratio : 0 ≤ ratio) (hone : ratio ≤ 1) (type : Str) {n : Nat} (_ : 0 < n) :
    0 ≤ nTest ratio type n ∧ (nTest ratio type n ≤ n ∨ 2 * (n : Int) ≤ nTest ratio type n) ∧
      min (n : Int) (nTest ratio type n) = share ratio type n := by
  have hfloor : ((n : Rat) * ratio).floor = (⌊(n : Rat) * ratio⌋₊ : Int) :=
    (Int.natCast_floor_eq_floor (mul_nonneg (Nat.cast_nonneg n) hratio)).symm
  have hle : ⌊(n : Rat) * ratio⌋₊ ≤ n :=
    Nat.floor_le_of_le (mul_le_of_le_one_right (Nat.cast_nonneg n) hone)
  unfold nTest share
  rw [hfloor]
  split <;> omega

/-- **The second slice of a group has its share**, that of a single `coopxtra` record too: two are
    asked for, the bound is -1, and the record goes to the test set. -/
theorem length_test (hratio : 0 ≤ ratio) (hone : ratio ≤ 1) (type : Str) {items : List Item}
    (hitems : items ≠ []) :
    (sliceFrom (items.length - nTest ratio type items.length) items).length =
      share ratio type items.length := by
  obtain ⟨hnonneg, hcut, hshare⟩ :=
    nTest_cases hratio hone type (List.length_pos_iff.mpr hitems)
  exact_mod_cast (length_sliceFrom hnonneg hcut).trans hshare

/-- STEP: one type. -/
theorem dealType_stratified (hratio : 0 ≤ ratio) (hone : ratio ≤ 1) {done : List Item} {st : Dealt σ}
    {g : Str × List Item} (hnew : ∀ x ∈ done, typeOf txt x ≠ some g.1) (hnonempty : g.2 ≠ [])
    (hown : ∀ x ∈ g.2, typeOf txt x = some g.1)
    (h : Stratified (typeOf txt) (share ratio) done st.dev st.test) :
    Stratified (typeOf txt) (share ratio) (done ++ g.2) (dealType rng ratio st g).dev
      (dealType rng ratio st g).test := by
  have hperm := rng.perm st.rng g.2
  have hlength := hperm.length_eq
  have hitems : (rng.shuffle st.rng g.2).1 ≠ [] := fun hnil => by
    rw [hnil] at hperm
    exact hnonempty hperm.nil_eq.symm
  refine h.deal share_zero hnew hown ?_ ?_
  · rw [sliceTo_append_sliceFrom]
    exact hperm
  · rw [length_test hratio hone g.1 hitems, hlength]

variable (rng)

/-- RUN: all types. -/
theorem dealTypes_stratified (hratio : 0 ≤ ratio) (hone : ratio ≤ 1) {xs : List Item}
    {groups : List (Str × List Item)} (h : Grouped (typeOf txt) xs groups) (seed : σ) :
    let st := groups.foldl (dealType rng ratio) ⟨seed, [], []⟩
    Stratified (typeOf txt) (share ratio) xs st.dev st.test := by
  have hrun := h.foldl (f := dealType rng ratio) (t := ⟨seed, [], []⟩)
    (P := fun done st => Stratified (typeOf txt) (share ratio) done st.dev st.test)
    (stratified_nil share_zero)
    fun done st g hnew hnonempty hown => dealType_stratified hratio hone hnew hnonempty hown
  exact hrun.shuffle h.perm (List.Perm.refl _) (List.Perm.refl _)

variable (seed : σ) {records : List Dict} {dev test : List Item}

theorem nodup_usable : (((enumerate records).filter usable).map Prod.fst).Nodup :=
  (List.filter_sublist.map Prod.fst).nodup (nodup_enumerate records)

/-- Records that are grouped are split, and the assertion holds. -/
theorem splitItems_of_groups (hratio : 0 ≤ ratio) (hone : ratio ≤ 1) {xs : List Item}
    {groups : List (Str × List Item)} (hxs : usableItems records = .ok xs)
    (hgroups : byType txt xs = .ok groups) :
    ∃ dev test, splitItems txt rng ratio seed records = .ok (dev, test) ∧
      Stratified (typeOf txt) (share ratio) xs dev test := by
  have hdealt := dealTypes_stratified rng hratio hone
    (sortedTypes_grouped (byType_grouped hgroups)) seed
  have hnodup : (xs.map Prod.fst).Nodup := usableItems_eq hxs ▸ nodup_usable
  have hdisjoint := hdealt.disjoint hnodup
  generalize hst : (sortedTypes groups).foldl (dealType rng ratio) ⟨seed, [], []⟩ = st at hdealt hdisjoint
  have hoverlap : (st.dev.map Prod.fst).any (st.test.map Prod.fst).contains = false :=
    List.any_eq_false.mpr fun i hi hcontains => hdisjoint hi (List.contains_iff_mem.mp hcontains)
  have hrun : splitItems txt rng ratio seed records =
      if (st.dev.map Prod.fst).any (st.test.map Prod.fst).contains then
        .error (.exception "BUG: dev/test overlap!".toList)
      else .ok ((rng.shuffle st.rng st.dev).1,
        (rng.shuffle (rng.shuffle st.rng st.dev).2 st.test).1) := by
    unfold splitItems
    rw [hxs, ← hst]
    show (byType txt xs >>= _) = _
    rw [hgroups]
    rfl
  rw [hoverlap] at hrun
  exact ⟨_, _, hrun, hdealt.shuffle (List.Perm.refl _) (rng.perm _ _) (rng.perm _ _)⟩

variable {rng seed}

/-- **What is split**: the usable records, by type. -/
theorem splitItems_stratified (hratio : 0 ≤ ratio) (hone : ratio ≤ 1)
    (h : splitItems txt rng ratio seed records = .ok (dev, test)) :
    Stratified (typeOf txt) (share ratio) ((enumerate records).filter usable) dev test := by
  have hrun := h
  unfold splitItems at hrun
  obtain ⟨xs, hxs, hrun⟩ := Proc.bind_eq_ok hrun
  obtain ⟨groups, hgroups, -⟩ := Proc.bind_eq_ok hrun
  obtain ⟨dev', test', hsplit, hstratified⟩ :=
    splitItems_of_groups rng seed hratio hone hxs hgroups
  cases h.symm.trans hsplit
  exact usableItems_eq hxs ▸ hstratified

/-- **When the script splits**: if it can read every record. -/
theorem splitItems_ok_iff (hratio : 0 ≤ ratio) (hone : ratio ≤ 1) :
    (∃ out, splitItems txt rng ratio seed records = .ok out) ↔
      ∀ x ∈ enumerate records, Readable x := by
  constructor
  · intro ⟨out, h⟩ x hx
    unfold splitItems at h
    obtain ⟨xs, hxs, h⟩ := Proc.bind_eq_ok h
    obtain ⟨groups, hgroups, -⟩ := Proc.bind_eq_ok h
    refine ⟨isUsable_ok_iff.mp (usableItems_ok_iff.mp ⟨xs, hxs⟩ x hx), fun husable => ?_⟩
    refine storeType_ok_iff.mp (byType_ok_iff.mp ⟨groups, hgroups⟩ x ?_)
    rw [usableItems_eq hxs]
    exact List.mem_filter.mpr ⟨hx, husable⟩
  · intro hread
    obtain ⟨xs, hxs⟩ := usableItems_ok_iff.mpr fun x hx => isUsable_ok_iff.mpr (hread x hx).status
    obtain ⟨groups, hgroups⟩ : ∃ groups, byType txt xs = .ok groups := by
      refine byType_ok_iff.mpr fun x hx => storeType_ok_iff.mpr ?_
      rw [usableItems_eq hxs] at hx
      obtain ⟨hx, husable⟩ := List.mem_filter.mp hx
      exact (hread x hx).type husable
    obtain ⟨dev, test, hsplit, -⟩ := splitItems_of_groups rng seed hratio hone hxs hgroups
    exact ⟨_, hsplit⟩

/-- What a row of split_meta.csv names. -/
def goldenIndex (row : Dict) : Option Json := Dict.get? row "golden_index".toList

theorem goldenIndex_metaRow (split : String) (x : Item) :
    goldenIndex (metaRow split x) = some (.num (natStr x.1)) := rfl

/-- **The files**: the records of the two sets are the usable ones, and split_meta.csv names the place
    of each once. -/
theorem splitEvalSet_files (hratio : 0 ≤ ratio) (hone : ratio ≤ 1) {files : SplitFiles}
    (h : splitEvalSet txt rng ratio seed records = .ok files) :
    (files.devSet ++ files.testSet).Perm (((enumerate records).filter usable).map Prod.snd) ∧
      (files.splitMeta.map goldenIndex).Perm
        (((enumerate records).filter usable).map fun x => some (.num (natStr x.1))) := by
  unfold splitEvalSet at h
  obtain ⟨⟨dev, test⟩, hsplit, h⟩ := Proc.bind_eq_ok h
  have hperm := (splitItems_stratified hratio hone hsplit).perm
  obtain rfl := Except.ok.inj h
  refine ⟨?_, ?_⟩
  · rw [← List.map_append]
    exact hperm.map Prod.snd
  · simp only [List.map_append, List.map_map, Function.comp_def, goldenIndex_metaRow]
    rw [← List.map_append]
    exact hperm.map _

end Dealt

end EvalSet

open EvalSet

/-- **The split is an exact stratified partition** of the usable records, for every ratio between 0 and
    1 and whatever the shuffles do; and it is made of every file whose records can be read. -/
theorem split_stratified {σ : Type} (txt : Texts) (rng : Rng σ Item) (seed : σ) (records : List Dict)
    {ratio : Rat} (hratio : 0 ≤ ratio) (hone : ratio ≤ 1) :
    (∀ dev test, splitItems txt rng ratio seed records = .ok (dev, test) →
      Stratified (typeOf txt) (share ratio) ((enumerate records).filter usable) dev test ∧
        List.Disjoint (dev.map Prod.fst) (test.map Prod.fst)) ∧
    ((∃ out, splitItems txt rng ratio seed records = .ok out) ↔
      ∀ x ∈ enumerate records, Readable x) := by
  refine ⟨fun dev test h => ?_, splitItems_ok_iff hratio hone⟩
  have hstratified := splitItems_stratified hratio hone h
  exact ⟨hstratified, hstratified.disjoint nodup_usable⟩

namespace Sample

/-- Shuffles that reverse. -/
def reversing : Rng Unit Item where
  shuffle _ xs := (xs.reverse, ())
  perm _ xs := xs.reverse_perm

/-- A label record of a type, with a status. -/
def typed (type status : String) : Dict :=
  [("type".toList, .str type.toList), ("date".toList, .str "01/02/2025".toList),
   ("receipt_number".toList, .str ['1']), ("total_money".toList, .str "1000".toList),
   ("_verify_status".toList, .str status.toList)]

/-- One record of `coopxtra`, two of `emart`, and one that is not verified. -/
def mixed : List Dict :=
  [typed "coopxtra" "verified_ok", typed "emart" "verified_ok", typed "emart" "unverified",
   typed "Emart" "corrected"]

theorem splitItems_mixed : splitItems texts reversing (1 / 2) () mixed =
    .ok ([(3, typed "Emart" "corrected")],
      [(1, typed "emart" "verified_ok"), (0, typed "coopxtra" "verified_ok")]) := by
  with_unfolding_all rfl

end Sample

theorem split_stratified_mixed :
    Stratified (typeOf Sample.texts) (share (1 / 2)) ((enumerate Sample.mixed).filter usable)
        [(3, Sample.typed "Emart" "corrected")]
        [(1, Sample.typed "emart" "verified_ok"), (0, Sample.typed "coopxtra" "verified_ok")] ∧
      List.Disjoint [3] [1, 0] :=
  (split_stratified Sample.texts Sample.reversing () Sample.mixed (by norm_num) (by norm_num)).1 _ _
    Sample.splitItems_mixed

end InvoiceOcr
