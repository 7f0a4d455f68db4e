/-
  File:      InvoiceOcr/Store/Table.lean
  Subject:   KEYED TABLES WITH A ROW CHECK. What a relational table with a primary key and a
             `CHECK` constraint does under inserts, updates and deletes. Nothing here names a
             program.

  * `Table key check` -- rows with distinct keys that all pass the check; a statement that would
    break one of the two is refused (`none`);
  * `find` -- the row of a key; the `find_…` lemmas say what each statement does to it;
  * `mem_iff_find` -- the rows are the values of `find`.
-/
import Mathlib.Data.List.Nodup

namespace Relational

variable {K R : Type} [DecidableEq K] {key : R → K} {check : R → Prop}

/-- **A table**: no key twice, every row passes the check. -/
structure Table (key : R → K) (check : R → Prop) where
  rows : List R
  unique : (rows.map key).Nodup
  checked : ∀ r ∈ rows, check r

namespace Table

def empty : Table key check := ⟨[], List.nodup_nil, fun _ h => (List.not_mem_nil h).elim⟩

/-- `SELECT … WHERE key = k`. -/
def find (t : Table key check) (k : K) : Option R := t.rows.find? fun r => key r = k

/-- `SELECT … WHERE p`. -/
def select (t : Table key check) (p : R → Bool) : List R := t.rows.filter p

/-- `INSERT`. -/
def insert [DecidablePred check] (t : Table key check) (r : R) : Option (Table key check) :=
  if h : key r ∉ t.rows.map key ∧ check r then
    some ⟨r :: t.rows, List.nodup_cons.mpr ⟨h.1, t.unique⟩, fun x hx =>
      (List.mem_cons.mp hx).elim (fun e => e ▸ h.2) (t.checked x)⟩
  else none

/-- A rewriting of rows that leaves their keys alone. -/
structure Rewrite (key : R → K) where
  run : R → R
  keeps : ∀ r, key (run r) = key r

/-- The rows after `UPDATE … SET f WHERE key = k`. -/
def modified (t : Table key check) (k : K) (f : Rewrite key) : List R :=
  t.rows.map fun r => if key r = k then f.run r else r

theorem map_key_modified (t : Table key check) (k : K) (f : Rewrite key) :
    (t.modified k f).map key = t.rows.map key := by
  simp only [modified, List.map_map]
  refine List.map_congr_left fun r _ => ?_
  show key (if key r = k then f.run r else r) = key r
  split
  · exact f.keeps r
  · rfl

/-- `UPDATE … SET f WHERE key = k`. -/
def modify [DecidablePred check] (t : Table key check) (k : K) (f : Rewrite key) :
    Option (Table key check) :=
  if h : ∀ r ∈ t.modified k f, check r then
    some ⟨t.modified k f, by rw [map_key_modified]; exact t.unique, h⟩
  else none

/-- `DELETE … WHERE p`. -/
def delete (t : Table key check) (p : R → Bool) : Table key check :=
  ⟨t.rows.filter fun r => !p r, (t.unique.sublist (List.filter_sublist.map key)),
    fun r hr => t.checked r (List.mem_of_mem_filter hr)⟩

/-! ## What a statement does to one key -/

theorem find_key {t : Table key check} {k : K} {r : R} (h : t.find k = some r) : key r = k := by
  simpa using List.find?_some h

theorem mem_of_find {t : Table key check} {k : K} {r : R} (h : t.find k = some r) : r ∈ t.rows :=
  List.mem_of_find?_eq_some h

/-- In a list without a repeated key a row is found under its own key. -/
theorem find_of_mem {rows : List R} (hn : (rows.map key).Nodup) {r : R} (hr : r ∈ rows) :
    (rows.find? fun x => key x = key r) = some r := by
  induction rows with
  | nil => exact (List.not_mem_nil hr).elim
  | cons x rows ih =>
    simp only [List.map_cons, List.nodup_cons] at hn
    rcases List.mem_cons.mp hr with rfl | hr
    · simp
    · have hne : key x ≠ key r := fun e => hn.1 (e ▸ List.mem_map_of_mem hr)
      rw [List.find?_cons_of_neg (by simpa using hne)]
      exact ih hn.2 hr

/-- **The rows of a table are what `find` finds.** -/
theorem mem_iff_find {t : Table key check} {r : R} : r ∈ t.rows ↔ t.find (key r) = some r :=
  ⟨find_of_mem t.unique, mem_of_find⟩

theorem mem_select {t : Table key check} {p : R → Bool} {r : R} :
    r ∈ t.select p ↔ t.find (key r) = some r ∧ p r = true := by
  rw [select, List.mem_filter, mem_iff_find]

@[simp] theorem find_empty (k : K) : (empty : Table key check).find k = none := rfl

theorem find_insert [DecidablePred check] {t t' : Table key check} {r : R}
    (h : t.insert r = some t') (k : K) :
    t'.find k = if key r = k then some r else t.find k := by
  simp only [insert] at h
  split at h
  · cases h
    by_cases hk : key r = k
    · simp [find, hk]
    · simp [find, hk]
  · cases h

omit [DecidableEq K] in
/-- Tables are their rows. -/
theorem ext_rows {t t' : Table key check} (h : t.rows = t'.rows) : t = t' := by
  cases t
  cases t'
  cases h
  rfl

/-- An `INSERT` is made exactly when there is a table with the new rows. -/
theorem insert_eq_some_iff [DecidablePred check] {t t' : Table key check} {r : R} :
    t.insert r = some t' ↔ t'.rows = r :: t.rows := by
  unfold insert
  constructor
  · intro h
    split at h
    · cases h
      rfl
    · cases h
  · intro h
    have hnew : key r ∉ t.rows.map key ∧ check r := by
      have hunique := t'.unique
      rw [h, List.map_cons] at hunique
      exact ⟨(List.nodup_cons.mp hunique).1, t'.checked r (by rw [h]; exact List.mem_cons_self)⟩
    rw [dif_pos hnew]
    exact congrArg some (ext_rows h.symm)

/-- The same of an `UPDATE`. -/
theorem modify_eq_some_iff [DecidablePred check] {t t' : Table key check} {k : K} {f : Rewrite key} :
    t.modify k f = some t' ↔ t'.rows = t.modified k f := by
  unfold modify
  constructor
  · intro h
    split at h
    · cases h
      rfl
    · cases h
  · intro h
    rw [dif_pos fun r hr => t'.checked r (by rw [h]; exact hr)]
    exact congrArg some (ext_rows h.symm)

/-- The rows with a key are the one `find` finds. -/
theorem select_key (t : Table key check) (k : K) :
    (t.rows.filter fun r => key r = k) = (t.find k).toList := by
  obtain ⟨rows, hn, hc⟩ := t
  simp only [find]
  clear hc
  induction rows with
  | nil => rfl
  | cons x rows ih =>
    simp only [List.map_cons, List.nodup_cons] at hn
    by_cases hx : key x = k
    · have hnone : (rows.filter fun r => key r = k) = [] := by
        refine List.filter_eq_nil_iff.mpr fun r hr => ?_
        have hne : key r ≠ k := fun e => hn.1 (List.mem_map.mpr ⟨r, hr, e.trans hx.symm⟩)
        simpa using hne
      rw [List.filter_cons_of_pos (by simpa using hx), List.find?_cons_of_pos (by simpa using hx), hnone]
      rfl
    · rw [List.filter_cons_of_neg (by simpa using hx), List.find?_cons_of_neg (by simpa using hx)]
      exact ih hn.2

/-- A row with a free key that passes the check is inserted. -/
theorem insert_of_free [DecidablePred check] {t : Table key check} {r : R}
    (hfree : t.find (key r) = none) (hr : check r) : ∃ t', t.insert r = some t' := by
  have hkey : key r ∉ t.rows.map key := by
    intro hm
    obtain ⟨x, hx, hk⟩ := List.mem_map.mp hm
    have hfind := mem_iff_find.mp hx
    rw [hk, hfree] at hfind
    cases hfind
  unfold insert
  rw [dif_pos ⟨hkey, hr⟩]
  exact ⟨_, rfl⟩

/-- A row that fails the check is refused. -/
theorem insert_of_not_check [DecidablePred check] {t : Table key check} {r : R} (hr : ¬ check r) :
    t.insert r = none := by
  unfold insert
  rw [dif_neg fun h => hr h.2]

/-- An inserted key was free. -/
theorem find_of_insert [DecidablePred check] {t t' : Table key check} {r : R}
    (h : t.insert r = some t') : t.find (key r) = none := by
  simp only [insert] at h
  split at h
  · next hf =>
    refine List.find?_eq_none.mpr fun x hx => ?_
    have hne : key x ≠ key r := fun e => hf.1 (e ▸ List.mem_map_of_mem hx)
    simpa using hne
  · cases h

theorem find_modified (rows : List R) (k : K) (f : Rewrite key) (k' : K) :
    (rows.map fun r => if key r = k then f.run r else r).find? (fun r => key r = k') =
      if k' = k then (rows.find? fun r => key r = k).map f.run
      else rows.find? fun r => key r = k' := by
  induction rows with
  | nil => simp
  | cons x rows ih =>
    simp only [List.map_cons]
    by_cases hx : key x = k
    · rw [if_pos hx]
      by_cases hk : k' = k
      · have hf : key (f.run x) = k' := (f.keeps x).trans (hx.trans hk.symm)
        rw [if_pos hk, List.find?_cons_of_pos (by simpa using hf),
          List.find?_cons_of_pos (by simpa using hx)]
        rfl
      · have hf : key (f.run x) ≠ k' := fun e => hk (e.symm.trans ((f.keeps x).trans hx))
        have hx' : key x ≠ k' := fun e => hk (e.symm.trans hx)
        rw [List.find?_cons_of_neg (by simpa using hf), ih, if_neg hk, if_neg hk,
          List.find?_cons_of_neg (by simpa using hx')]
    · have hskip : ((x :: rows).find? fun r => key r = k) = rows.find? fun r => key r = k :=
        List.find?_cons_of_neg (by simpa using hx)
      rw [if_neg hx, hskip]
      by_cases hx' : key x = k'
      · have hk : k' ≠ k := fun e => hx (hx'.trans e)
        rw [List.find?_cons_of_pos (by simpa using hx'), if_neg hk,
          List.find?_cons_of_pos (by simpa using hx')]
      · have hskip' : ((x :: rows).find? fun r => key r = k') = rows.find? fun r => key r = k' :=
          List.find?_cons_of_neg (by simpa using hx')
        rw [List.find?_cons_of_neg (by simpa using hx'), ih, hskip']

theorem find_modify [DecidablePred check] {t t' : Table key check} {k : K} {f : Rewrite key}
    (h : t.modify k f = some t') (k' : K) :
    t'.find k' = if k' = k then (t.find k).map f.run else t.find k' := by
  simp only [modify] at h
  split at h
  · cases h
    exact find_modified t.rows k f k'
  · cases h

/-- An update whose rows pass the check is made. -/
theorem modify_of_check [DecidablePred check] {t : Table key check} {k : K} {f : Rewrite key}
    (h : ∀ r, check r → check (f.run r)) : ∃ t', t.modify k f = some t' := by
  refine ⟨_, dif_pos fun r hr => ?_⟩
  obtain ⟨r₀, hr₀, rfl⟩ := List.mem_map.mp hr
  split
  · exact h r₀ (t.checked r₀ hr₀)
  · exact t.checked r₀ hr₀

theorem find_delete (t : Table key check) (p : R → Bool) (k : K) :
    (t.delete p).find k = (t.find k).filter fun r => !p r := by
  obtain ⟨rows, hn, hc⟩ := t
  simp only [find, delete]
  clear hc
  induction rows with
  | nil => rfl
  | cons x rows ih =>
    simp only [List.map_cons, List.nodup_cons] at hn
    have ih := ih hn.2
    by_cases hx : key x = k
    · have habs : (rows.find? fun r => key r = k) = none := by
        refine List.find?_eq_none.mpr fun y hy => ?_
        have hne : key y ≠ k := fun e => hn.1 (hx ▸ e ▸ List.mem_map_of_mem hy)
        simpa using hne
      rw [habs] at ih
      rw [List.find?_cons_of_pos (by simpa using hx)]
      cases hp : p x with
      | true =>
        rw [List.filter_cons_of_neg (by simp [hp]), ih]
        simp [Option.filter, hp]
      | false =>
        rw [List.filter_cons_of_pos (by simp [hp]), List.find?_cons_of_pos (by simpa using hx)]
        simp [Option.filter, hp]
    · rw [List.find?_cons_of_neg (by simpa using hx), ← ih]
      cases hp : p x with
      | true => rw [List.filter_cons_of_neg (by simp [hp])]
      | false =>
        rw [List.filter_cons_of_pos (by simp [hp]), List.find?_cons_of_neg (by simpa using hx)]

end Table

end Relational
