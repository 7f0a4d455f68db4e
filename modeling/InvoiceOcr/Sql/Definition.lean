/-
  File:      InvoiceOcr/Sql/Definition.lean
  Subject:   WHAT A TABLE IS, AND HOW IT CHANGES. The statements that make, alter and drop one table,
             as text and as what they do to its definition and to the rows it has. Nothing here names a
             program.

  * `Definition`, `fits` -- columns, a primary key, checks, and the rows they let in;
  * `Relation` -- a definition with rows that fit it and differ in their keys;
  * `Ddl`, `parseDdl` -- `CREATE`, `ALTER` and `DROP`;
  * `Alteration.run` -- the altered definition, and what becomes of a row;
  * **`rename_some`**, **`retype_some`**, **`drop_some`**, **`add_some`** -- an alteration goes through,
    and what becomes of the rows;
  * `Script`, `pending`, `upgradeHead`, `downgradeOne` -- scripts under a version, in one transaction.
-/
import InvoiceOcr.Sql.Statement

namespace Sql

/-! ## 1. Definitions -/

inductive ColumnType where
  | uuid
  | text
  | varchar (size : Nat)
  | jsonb
  | timestamptz
  deriving DecidableEq, Repr

structure Column where
  name : List Char
  type : ColumnType
  notNull : Bool
  default : Default
  deriving DecidableEq

/-- The condition of a `CHECK` or of an index. -/
inductive Check where
  | oneOf (column : List Char) (texts : List (List Char))
  | differs (column text : List Char)
  | present (column : List Char)
  | or (a b : Check)
  deriving DecidableEq

structure Index where
  name : List Char
  columns : List (List Char)
  cond : Check
  deriving DecidableEq

/-- What a table is. -/
structure Definition where
  table : List Char
  columns : List Column
  primaryKey : List Char
  checks : List (List Char × Check)
  indexes : List Index
  deriving DecidableEq

def Definition.names (d : Definition) : List (List Char) := d.columns.map Column.name

/-- What an `INSERT` knows of a table. -/
def Definition.schema (d : Definition) : Schema := ⟨d.table, d.columns.map fun c => (c.name, c.default)⟩

/-- `ALTER TABLE …`. An added column is nullable and has no default. -/
inductive Alteration where
  | renameColumn (old new : List Char)
  | alterType (column : List Char) (type : ColumnType)
  | dropColumn (ifExists : Bool) (column : List Char)
  | addColumn (ifNotExists : Bool) (column : List Char) (type : ColumnType)
  deriving DecidableEq

inductive Ddl where
  | createTable (ifNotExists : Bool) (d : Definition)
  | dropTable (ifExists : Bool) (table : List Char)
  | createIndex (ifNotExists : Bool) (table : List Char) (i : Index)
  | dropIndex (ifExists : Bool) (index : List Char)
  | alter (table : List Char) (a : Alteration)
  deriving DecidableEq

/-! ## 2. Texts -/

/-- A number. -/
def numeral : Parser Nat
  | .word s :: ts =>
    if s.all Char.isDigit then some (s.foldl (fun n c => 10 * n + (c.toNat - '0'.toNat)) 0, ts) else none
  | _ => none

def columnType : Parser ColumnType
  | .word s :: ts =>
    if s = "uuid".toList then some (.uuid, ts)
    else if s = "text".toList then some (.text, ts)
    else if s = "jsonb".toList then some (.jsonb, ts)
    else if s = "timestamptz".toList then some (.timestamptz, ts)
    else if s = "varchar".toList then (parens numeral ts).map fun (n, ts) => (.varchar n, ts)
    else none
  | _ => none

/-- The words, if they are next. -/
def words : List String → Parser Unit
  | [], ts => some ((), ts)
  | s :: rest, ts => (keyword s ts).bind fun ((), ts) => words rest ts

/-- Whether the words are next. -/
def whether (phrase : List String) (ts : List Token) : Bool × List Token :=
  match words phrase ts with
  | some ((), ts) => (true, ts)
  | none => (false, ts)

/-- What follows the type of a column. -/
def modifiers : Nat → Column → Bool → Parser (Column × Bool)
  | 0, _, _, _ => none
  | fuel + 1, c, key, ts =>
    match whether ["primary", "key"] ts with
    | (true, ts) => modifiers fuel { c with notNull := true } true ts
    | (false, ts) =>
      match whether ["not", "null"] ts with
      | (true, ts) => modifiers fuel { c with notNull := true } key ts
      | (false, ts) =>
        match whether ["null"] ts with
        | (true, ts) => modifiers fuel c key ts
        | (false, ts) =>
          match whether ["default"] ts with
          | (false, ts) => some ((c, key), ts)
          | (true, ts) =>
            match operand ts with
            | some (.now, ts) => modifiers fuel { c with default := .now } key ts
            | _ => none

/-- A column, and whether it is the primary key. -/
def columnItem : Parser (Column × Bool) := fun ts => do
  let (column, ts) ← name ts
  let (type, ts) ← columnType ts
  modifiers ts.length ⟨column, type, false, .null⟩ false ts

/-- `column IN (…)`, `column <> …` or `column IS NOT NULL`. -/
def checkAtom : Parser Check := fun ts => do
  let (column, ts) ← name ts
  match ts with
  | .sign '<' :: .sign '>' :: .text s :: ts => return (.differs column s, ts)
  | .word ['i', 'n'] :: ts =>
    let (texts, ts) ← parens (commas textItem ts.length) ts
    return (.oneOf column texts, ts)
  | ts =>
    let ((), ts) ← words ["is", "not", "null"] ts
    return (.present column, ts)

/-- Atoms with `OR` between them. -/
def check : Nat → Parser Check
  | 0, _ => none
  | fuel + 1, ts => do
    let (a, ts) ← checkAtom ts
    match ts with
    | .word ['o', 'r'] :: ts =>
      let (b, ts) ← check fuel ts
      return (.or a b, ts)
    | _ => return (a, ts)

/-- A column or a constraint of a table. -/
def tableItem : Parser (Sum (Column × Bool) (List Char × Check)) := fun ts =>
  match whether ["constraint"] ts with
  | (true, ts) => do
    let (label, ts) ← name ts
    let ((), ts) ← keyword "check" ts
    let (c, ts) ← parens (check ts.length) ts
    return (.inr (label, c), ts)
  | (false, ts) => (columnItem ts).map fun (c, ts) => (.inl c, ts)

/-- The items of a table; it has one primary key. -/
def definitionOf (table : List Char) (items : List (Sum (Column × Bool) (List Char × Check))) :
    Option Definition :=
  let columns := items.filterMap Sum.getLeft?
  match columns.filter Prod.snd with
  | [(key, _)] => some ⟨table, columns.map Prod.fst, key.name, items.filterMap Sum.getRight?, []⟩
  | _ => none

def createTableTail : Parser Ddl := fun ts => do
  let (ifNotExists, ts) := whether ["if", "not", "exists"] ts
  let (table, ts) ← name ts
  let (items, ts) ← parens (commas tableItem ts.length) ts
  let d ← definitionOf table items
  return (.createTable ifNotExists d, ts)

def createIndexTail : Parser Ddl := fun ts => do
  let (ifNotExists, ts) := whether ["if", "not", "exists"] ts
  let (index, ts) ← name ts
  let ((), ts) ← keyword "on" ts
  let (table, ts) ← name ts
  let (columns, ts) ← parens (commas name ts.length) ts
  let ((), ts) ← keyword "where" ts
  let (cond, ts) ← check ts.length ts
  return (.createIndex ifNotExists table ⟨index, columns, cond⟩, ts)

def alterTail : Parser Ddl := fun ts => do
  let (table, ts) ← name ts
  match ts with
  | .word s :: ts =>
    let ((), ts) ← keyword "column" ts
    if s = "rename".toList then
      let (old, ts) ← name ts
      let ((), ts) ← keyword "to" ts
      let (new, ts) ← name ts
      return (.alter table (.renameColumn old new), ts)
    else if s = "alter".toList then
      let (column, ts) ← name ts
      let ((), ts) ← keyword "type" ts
      let (type, ts) ← columnType ts
      return (.alter table (.alterType column type), ts)
    else if s = "drop".toList then
      let (ifExists, ts) := whether ["if", "exists"] ts
      let (column, ts) ← name ts
      return (.alter table (.dropColumn ifExists column), ts)
    else if s = "add".toList then
      let (ifNotExists, ts) := whether ["if", "not", "exists"] ts
      let (column, ts) ← name ts
      let (type, ts) ← columnType ts
      let ((), ts) ← keyword "null" ts
      return (.alter table (.addColumn ifNotExists column type), ts)
    else none
  | _ => none

/-- A statement, by its first words. -/
def ddl : Parser Ddl := fun ts =>
  match whether ["create", "table"] ts with
  | (true, ts) => createTableTail ts
  | (false, ts) =>
    match whether ["create", "index"] ts with
    | (true, ts) => createIndexTail ts
    | (false, ts) =>
      match whether ["alter", "table"] ts with
      | (true, ts) => alterTail ts
      | (false, ts) => do
        let ((), ts) ← keyword "drop" ts
        let (table, ts) := whether ["table"] ts
        let ((), ts) ← if table then some ((), ts) else keyword "index" ts
        let (ifExists, ts) := whether ["if", "exists"] ts
        let (dropped, ts) ← name ts
        return (if table then .dropTable ifExists dropped else .dropIndex ifExists dropped, ts)

/-- **The statement a text is**, with its semicolon. -/
def parseDdl (s : List Char) : Option Ddl :=
  (lex s).bind fun ts =>
    match ddl ts with
    | some (stmt, [.sign ';']) => some stmt
    | _ => none

/-! ## 3. Rows that fit -/

variable {U J : Type}

def Value.isNull : Value U J → Bool
  | .null => true
  | _ => false

def Value.ofType : Value U J → ColumnType → Bool
  | .null, _ => true
  | .uuid _, .uuid => true
  | .text _, .text => true
  | .text s, .varchar size => s.length ≤ size
  | .json _, .jsonb => true
  | .time _, .timestamptz => true
  | _, _ => false

/-- The value may stand in the column. -/
def Column.admits (c : Column) (v : Value U J) : Bool := v.ofType c.type && !(c.notNull && v.isNull)

/-- The truth value of a condition on a record. -/
def Check.truth (r : Record U J) : Check → Option Bool
  | .oneOf column texts =>
    match r.get? column with
    | some (.text s) => some (texts.contains s)
    | _ => none
  | .differs column text =>
    match r.get? column with
    | some (.text s) => some (s ≠ text)
    | _ => none
  | .present column => (r.get? column).map fun v => !v.isNull
  | .or a b => either (a.truth r) (b.truth r)

/-- The columns of a condition. -/
def Check.columns : Check → List (List Char)
  | .oneOf column _ => [column]
  | .differs column _ => [column]
  | .present column => [column]
  | .or a b => a.columns ++ b.columns

/-- The record has the columns, in their order, with values they admit. -/
def shaped : List Column → Record U J → Bool
  | [], [] => true
  | c :: cs, (column, v) :: r => column = c.name && c.admits v && shaped cs r
  | _, _ => false

/-- **The row fits the definition.** A check refuses a row that it is false of, not one that it is
    unknown of. -/
def Definition.fits (d : Definition) (r : Record U J) : Bool :=
  shaped d.columns r && d.checks.all fun c => c.2.truth r != some false

/-- Two keys are the same; JSON and spans are no keys. -/
def sameKey [DecidableEq U] : Option (Value U J) → Option (Value U J) → Bool
  | some (.uuid u), some (.uuid u') => u = u'
  | some (.text s), some (.text s') => s = s'
  | some (.time t), some (.time t') => t = t'
  | _, _ => false

/-- The rows differ in their keys. -/
def Definition.Distinct [DecidableEq U] (d : Definition) (rows : List (Record U J)) : Prop :=
  rows.Pairwise fun r r' => sameKey (r.get? d.primaryKey) (r'.get? d.primaryKey) = false

/-- **A table**: its definition, and rows that fit it and differ in their keys. -/
structure Relation (U J : Type) [DecidableEq U] where
  definition : Definition
  rows : List (Record U J)
  fits : ∀ r ∈ rows, definition.fits r = true
  distinct : definition.Distinct rows

section Relations

variable [DecidableEq U]

/-- Tables are their definitions and their rows. -/
theorem Relation.ext_rows {t t' : Relation U J} (hd : t.definition = t'.definition)
    (hr : t.rows = t'.rows) : t = t' := by
  cases t
  cases t'
  cases hd
  cases hr
  rfl

instance (d : Definition) (rows : List (Record U J)) : Decidable (d.Distinct rows) :=
  inferInstanceAs (Decidable (rows.Pairwise _))

/-- The table with the rows, if it may have them. -/
def Relation.build? (d : Definition) (rows : List (Record U J)) : Option (Relation U J) :=
  if h : (∀ r ∈ rows, d.fits r = true) ∧ d.Distinct rows then some ⟨d, rows, h.1, h.2⟩ else none

theorem Relation.build?_eq_some_iff {d : Definition} {rows : List (Record U J)} {t : Relation U J} :
    Relation.build? d rows = some t ↔ t.definition = d ∧ t.rows = rows := by
  constructor
  · intro h
    unfold Relation.build? at h
    split at h
    · cases h
      exact ⟨rfl, rfl⟩
    · cases h
  · rintro ⟨rfl, rfl⟩
    rw [Relation.build?, dif_pos ⟨t.fits, t.distinct⟩]

end Relations

/-! ## 4. What a statement does -/

def renamed (old new column : List Char) : List Char := if column = old then new else column

/-- The condition about other columns. -/
def Check.about (f : List Char → List Char) : Check → Check
  | .oneOf column texts => .oneOf (f column) texts
  | .differs column text => .differs (f column) text
  | .present column => .present (f column)
  | .or a b => .or (a.about f) (b.about f)

def Definition.rename (d : Definition) (old new : List Char) : Definition where
  table := d.table
  columns := d.columns.map fun c => { c with name := renamed old new c.name }
  primaryKey := renamed old new d.primaryKey
  checks := d.checks.map fun c => (c.1, c.2.about (renamed old new))
  indexes := d.indexes.map fun i =>
    { i with columns := i.columns.map (renamed old new), cond := i.cond.about (renamed old new) }

def Definition.retype (d : Definition) (column : List Char) (type : ColumnType) : Definition :=
  { d with columns := d.columns.map fun c => if c.name = column then { c with type := type } else c }

/-- With a column go the checks and the indexes that are about it. -/
def Definition.drop (d : Definition) (column : List Char) : Definition :=
  { d with
    columns := d.columns.filter fun c => c.name != column
    checks := d.checks.filter fun c => !c.2.columns.contains column
    indexes := d.indexes.filter fun i =>
      !i.columns.contains column && !i.cond.columns.contains column }

def Definition.add (d : Definition) (column : List Char) (type : ColumnType) : Definition :=
  { d with columns := d.columns ++ [⟨column, type, false, .null⟩] }

/-- The cast of an assignment. A text that is too long is cut where only blanks are lost. -/
def Value.assigned : Value U J → ColumnType → Option (Value U J)
  | .text s, .varchar size =>
    if s.length ≤ size then some (.text s)
    else if (s.drop size).all (· = ' ') then some (.text (s.take size))
    else none
  | v, type => if v.ofType type then some v else none

def Record.rename (r : Record U J) (old new : List Char) : Record U J :=
  r.map fun e => (renamed old new e.1, e.2)

def Record.drop (r : Record U J) (column : List Char) : Record U J := r.filter fun e => e.1 != column

def Record.retype (column : List Char) (type : ColumnType) : Record U J → Option (Record U J)
  | [] => some []
  | e :: r =>
    (if e.1 = column then e.2.assigned type else some e.2).bind fun v =>
      (Record.retype column type r).map fun r => (e.1, v) :: r

/-- **What an alteration makes of a definition, and of each row**, where the names allow it. A primary key
    is not dropped here. -/
def Alteration.run (d : Definition) :
    Alteration → Option (Definition × (Record U J → Option (Record U J)))
  | .renameColumn old new =>
    if d.names.contains old && !d.names.contains new then
      some (d.rename old new, fun r => some (r.rename old new))
    else none
  | .alterType column type =>
    if d.names.contains column then some (d.retype column type, Record.retype column type) else none
  | .dropColumn ifExists column =>
    if d.names.contains column then
      if column = d.primaryKey then none else some (d.drop column, fun r => some (r.drop column))
    else if ifExists then some (d, some) else none
  | .addColumn ifNotExists column type =>
    if d.names.contains column then if ifNotExists then some (d, some) else none
    else some (d.add column type, fun r => some (r ++ [(column, .null)]))

/-- Every row rewritten. -/
def mapRows (f : Record U J → Option (Record U J)) : List (Record U J) → Option (List (Record U J))
  | [] => some []
  | r :: rs => (f r).bind fun r' => (mapRows f rs).map fun rs' => r' :: rs'

section Statements

variable [DecidableEq U]

/-- An altered table; its checks and its key hold of the rows again. -/
def Relation.alter (t : Relation U J) (a : Alteration) : Option (Relation U J) :=
  (a.run t.definition).bind fun (d, f) => (mapRows f t.rows).bind fun rows => Relation.build? d rows

def Relation.mapIndexes (t : Relation U J) (f : List Index → List Index) : Relation U J where
  definition := { t.definition with indexes := f t.definition.indexes }
  rows := t.rows
  fits := t.fits
  distinct := t.distinct

/-- **What a statement does to the one table that may be there**; `none` is an error. -/
def Ddl.run (t : Option (Relation U J)) : Ddl → Option (Option (Relation U J))
  | .createTable ifNotExists d =>
    match t with
    | none => some (some ⟨d, [], fun _ h => absurd h List.not_mem_nil, .nil⟩)
    | some t => if ifNotExists && t.definition.table == d.table then some (some t) else none
  | .dropTable ifExists table =>
    match t with
    | none => if ifExists then some none else none
    | some t =>
      if t.definition.table = table then some none else if ifExists then some (some t) else none
  | .createIndex ifNotExists table i =>
    match t with
    | none => none
    | some t =>
      if t.definition.table ≠ table then none
      else if (t.definition.indexes.map Index.name).contains i.name then
        if ifNotExists then some (some t) else none
      else if (i.columns ++ i.cond.columns).all t.definition.names.contains then
        some (some (t.mapIndexes fun is => is ++ [i]))
      else none
  | .dropIndex ifExists index =>
    match t with
    | none => if ifExists then some none else none
    | some t =>
      if (t.definition.indexes.map Index.name).contains index then
        some (some (t.mapIndexes fun is => is.filter fun i => i.name != index))
      else if ifExists then some (some t) else none
  | .alter table a =>
    match t with
    | none => none
    | some t => if t.definition.table = table then (t.alter a).map some else none

/-- Statements, one after the other. -/
def runAll (t : Option (Relation U J)) : List Ddl → Option (Option (Relation U J))
  | [] => some t
  | s :: rest => (s.run t).bind fun t => runAll t rest

end Statements

/-! ## 5. Alterations go through -/

/-- The columns that the key and the checks are about. -/
def Definition.used (d : Definition) : List (List Char) :=
  d.primaryKey :: d.checks.flatMap fun c => c.2.columns

theorem mem_used_of_check {d : Definition} {c : List Char × Check} {column : List Char}
    (hc : c ∈ d.checks) (h : column ∈ c.2.columns) : column ∈ d.used :=
  List.mem_cons_of_mem _ (List.mem_flatMap.mpr ⟨c, hc, h⟩)

/-- A condition is as true of one record as of another that has its columns under other names. -/
theorem truth_about {f : List Char → List Char} {r r' : Record U J} {c : Check}
    (h : ∀ column ∈ c.columns, r'.get? (f column) = r.get? column) : (c.about f).truth r' = c.truth r := by
  induction c with
  | oneOf column _ => simp only [Check.about, Check.truth, h column (by simp [Check.columns])]
  | differs column _ => simp only [Check.about, Check.truth, h column (by simp [Check.columns])]
  | present column => simp only [Check.about, Check.truth, h column (by simp [Check.columns])]
  | or a b iha ihb =>
    simp only [Check.columns, List.mem_append] at h
    simp only [Check.about, Check.truth, iha fun c hc => h c (Or.inl hc),
      ihb fun c hc => h c (Or.inr hc)]

theorem about_id (c : Check) : c.about (fun column => column) = c := by
  induction c with
  | or a b iha ihb => simp only [Check.about, iha, ihb]
  | _ => rfl

/-- The same under the same names. -/
theorem truth_congr {r r' : Record U J} {c : Check}
    (h : ∀ column ∈ c.columns, r'.get? column = r.get? column) : c.truth r' = c.truth r := by
  have hc := truth_about (f := fun column => column) h
  rwa [about_id] at hc

theorem names_of_shaped {cs : List Column} {r : Record U J} (h : shaped cs r = true) :
    r.map Prod.fst = cs.map Column.name := by
  induction cs generalizing r with
  | nil =>
    cases r with
    | nil => rfl
    | cons _ _ => cases h
  | cons c cs ih =>
    cases r with
    | nil => cases h
    | cons e r =>
      simp only [shaped, Bool.and_eq_true, decide_eq_true_eq] at h
      rw [List.map_cons, List.map_cons, h.1.1, ih h.2]

theorem shaped_of_fits {d : Definition} {r : Record U J} (h : d.fits r = true) :
    shaped d.columns r = true := by
  unfold Definition.fits at h
  exact (Bool.and_eq_true_iff.mp h).1

/-- A row that has the shape, and of which the checks are as true as of one that fits. -/
theorem fits_of_truth {d d' : Definition} {r r' : Record U J} (h : d.fits r = true)
    (hs : shaped d'.columns r' = true)
    (hc : ∀ c' ∈ d'.checks, ∃ c ∈ d.checks, c'.2.truth r' = c.2.truth r) : d'.fits r' = true := by
  unfold Definition.fits at h ⊢
  rw [Bool.and_eq_true, List.all_eq_true] at h ⊢
  refine ⟨hs, fun c' hc' => ?_⟩
  obtain ⟨c, hm, he⟩ := hc c' hc'
  rw [he]
  exact h.2 c hm

@[simp] theorem get?_nil (c : List Char) : Record.get? ([] : Record U J) c = none := rfl

theorem get?_cons (e : List Char × Value U J) (r : Record U J) (c : List Char) :
    Record.get? (e :: r) c = if e.1 = c then some e.2 else Record.get? r c := by
  unfold Record.get?
  rw [List.find?_cons]
  by_cases h : e.1 = c
  · simp [h]
  · simp [h]

theorem get?_rename {r : Record U J} (old : List Char) {new c : List Char} (hnew : new ∉ r.map Prod.fst)
    (hc : c ≠ new) : (r.rename old new).get? (renamed old new c) = r.get? c := by
  induction r with
  | nil => rfl
  | cons e r ih =>
    simp only [List.map_cons, List.mem_cons, not_or] at hnew
    have hname : renamed old new e.1 = renamed old new c ↔ e.1 = c := by
      unfold renamed
      split <;> split <;> grind
    show Record.get? ((renamed old new e.1, e.2) :: Record.rename r old new) _ = _
    rw [get?_cons, get?_cons, ih hnew.2]
    simp only [hname]

theorem get?_drop {r : Record U J} {column c : List Char} (hc : c ≠ column) :
    (r.drop column).get? c = r.get? c := by
  induction r with
  | nil => rfl
  | cons e r ih =>
    unfold Record.drop at ih ⊢
    rw [List.filter_cons, get?_cons]
    by_cases he : e.1 = column
    · rw [if_neg (by simp [he]), if_neg fun h => hc (h.symm.trans he), ih]
    · rw [if_pos (by simpa using he), get?_cons, ih]

theorem get?_add {r : Record U J} {column c : List Char} {v : Value U J} (hc : c ≠ column) :
    Record.get? (r ++ [(column, v)]) c = r.get? c := by
  induction r with
  | nil => rw [List.nil_append, get?_cons, if_neg fun h => hc h.symm]
  | cons e r ih => rw [List.cons_append, get?_cons, get?_cons, ih]

/-- What a retyped row has been made of. -/
theorem retype_cons {e : List Char × Value U J} {r r' : Record U J} {column : List Char}
    {type : ColumnType} (h : Record.retype column type (e :: r) = some r') :
    ∃ v s, (if e.1 = column then e.2.assigned type else some e.2) = some v ∧
      Record.retype column type r = some s ∧ r' = (e.1, v) :: s := by
  rw [Record.retype, Option.bind_eq_some_iff] at h
  obtain ⟨v, hv, h⟩ := h
  obtain ⟨s, hs, h⟩ := Option.map_eq_some_iff.mp h
  exact ⟨v, s, hv, hs, h.symm⟩

theorem get?_retype {r r' : Record U J} {column c : List Char} {type : ColumnType}
    (h : Record.retype column type r = some r') (hc : c ≠ column) : r'.get? c = r.get? c := by
  induction r generalizing r' with
  | nil =>
    cases h
    rfl
  | cons e r ih =>
    obtain ⟨v, s, hv, hs, rfl⟩ := retype_cons h
    rw [get?_cons, get?_cons, ih hs]
    by_cases he : e.1 = c
    · rw [if_neg (he ▸ hc)] at hv
      rw [Option.some.inj hv]
    · rw [if_neg he, if_neg he]

theorem get?_retype_self {r r' : Record U J} {column : List Char} {type : ColumnType} {v : Value U J}
    (h : Record.retype column type r = some r') (hv : r.get? column = some v) :
    ∃ v', v.assigned type = some v' ∧ r'.get? column = some v' := by
  induction r generalizing r' with
  | nil => cases hv
  | cons e r ih =>
    obtain ⟨w, s, hw, hs, rfl⟩ := retype_cons h
    rw [get?_cons] at hv
    simp only [get?_cons]
    by_cases he : e.1 = column
    · rw [if_pos he] at hw hv
      rw [Option.some.inj hv] at hw
      exact ⟨w, hw, if_pos he⟩
    · rw [if_neg he] at hv
      obtain ⟨v', hv', hget⟩ := ih hs hv
      exact ⟨v', hv', by rw [if_neg he, hget]⟩

/-- A text fits if only blanks would be lost. -/
theorem assigned_varchar (s : List Char) (size : Nat) :
    (Value.text s : Value U J).assigned (.varchar size) =
      if (s.drop size).all (· = ' ') then some (.text (s.take size)) else none := by
  rw [Value.assigned]
  split
  · rename_i hlen
    rw [List.drop_eq_nil_of_le hlen, List.take_of_length_le hlen]
    rfl
  · rfl

/-- A row is retyped if its values of the column can be assigned. -/
theorem retype_isSome {r : Record U J} {column : List Char} {type : ColumnType}
    (h : ∀ e ∈ r, e.1 = column → (e.2.assigned type).isSome = true) :
    (Record.retype column type r).isSome = true := by
  induction r with
  | nil => rfl
  | cons e r ih =>
    obtain ⟨s, hs⟩ := Option.isSome_iff_exists.mp (ih fun e he => h e (List.mem_cons_of_mem _ he))
    have hv : (if e.1 = column then e.2.assigned type else some e.2).isSome = true := by
      split
      · exact h e List.mem_cons_self (by assumption)
      · rfl
    obtain ⟨v, hv⟩ := Option.isSome_iff_exists.mp hv
    rw [Record.retype, hv, hs]
    rfl

/-- It stays what it is if they are what they are assigned. -/
theorem retype_self {r : Record U J} {column : List Char} {type : ColumnType}
    (h : ∀ e ∈ r, e.1 = column → e.2.assigned type = some e.2) :
    Record.retype column type r = some r := by
  induction r with
  | nil => rfl
  | cons e r ih =>
    have hv : (if e.1 = column then e.2.assigned type else some e.2) = some e.2 := by
      split
      · exact h e List.mem_cons_self (by assumption)
      · rfl
    rw [Record.retype, hv, ih fun e he => h e (List.mem_cons_of_mem _ he)]
    rfl

/-- A name given and taken back. -/
theorem rename_rename {r : Record U J} {old new : List Char} (h : new ∉ r.map Prod.fst) :
    (r.rename old new).rename new old = r := by
  unfold Record.rename
  rw [List.map_map]
  conv_rhs => rw [← List.map_id r]
  refine List.map_congr_left fun e he => ?_
  have hne : e.1 ≠ new := fun hn => h (hn ▸ List.mem_map_of_mem he)
  have hname : renamed new old (renamed old new e.1) = e.1 := by
    unfold renamed
    grind
  exact Prod.ext hname rfl

/-- A column added and dropped. -/
theorem drop_add {r : Record U J} {column : List Char} {v : Value U J}
    (h : column ∉ r.map Prod.fst) : Record.drop (r ++ [(column, v)]) column = r := by
  unfold Record.drop
  rw [List.filter_append, List.filter_eq_self.mpr fun e he => ?_]
  · simp
  · have hne : e.1 ≠ column := fun hn => h (hn ▸ List.mem_map_of_mem he)
    simpa using hne

theorem get?_of_mem {r : Record U J} (hn : (r.map Prod.fst).Nodup) {e : List Char × Value U J}
    (he : e ∈ r) : r.get? e.1 = some e.2 := by
  induction r with
  | nil => cases he
  | cons e' r ih =>
    rw [List.map_cons, List.nodup_cons] at hn
    rw [get?_cons]
    rcases List.mem_cons.mp he with rfl | he
    · rw [if_pos rfl]
    · have hne : e'.1 ≠ e.1 := fun heq => hn.1 (by rw [heq]; exact List.mem_map_of_mem he)
      rw [if_neg hne, ih hn.2 he]

theorem admits_assigned {c : Column} {v v' : Value U J} {type : ColumnType} (h : c.admits v = true)
    (hv : v.assigned type = some v') : Column.admits { c with type := type } v' = true := by
  have hnull : v'.isNull = v.isNull ∧ v'.ofType type = true := by
    unfold Value.assigned at hv
    split at hv
    · split at hv
      · cases hv
        exact ⟨rfl, by simpa [Value.ofType]⟩
      · split at hv
        · cases hv
          exact ⟨rfl, decide_eq_true (List.length_take_le _ _)⟩
        · cases hv
    · split at hv
      · cases hv
        exact ⟨rfl, by assumption⟩
      · cases hv
  unfold Column.admits at h ⊢
  rw [Bool.and_eq_true] at h ⊢
  exact ⟨hnull.2, by rw [hnull.1]; exact h.2⟩

theorem shaped_cons {c : Column} {cs : List Column} {e : List Char × Value U J} {r : Record U J} :
    shaped (c :: cs) (e :: r) = true ↔ (e.1 = c.name ∧ c.admits e.2 = true) ∧ shaped cs r = true := by
  simp [shaped]

/-- A row has a value that each column admits. -/
theorem admits_of_shaped {cs : List Column} {r : Record U J} {c : Column}
    (hn : (cs.map Column.name).Nodup) (h : shaped cs r = true) (hc : c ∈ cs) :
    ∃ v, r.get? c.name = some v ∧ c.admits v = true := by
  induction cs generalizing r with
  | nil => cases hc
  | cons c' cs ih =>
    cases r with
    | nil => cases h
    | cons e r =>
      obtain ⟨⟨hname, hadm⟩, h⟩ := shaped_cons.mp h
      rw [List.map_cons, List.nodup_cons] at hn
      rw [get?_cons, hname]
      rcases List.mem_cons.mp hc with rfl | hc
      · exact ⟨e.2, if_pos rfl, hadm⟩
      · have hne : c'.name ≠ c.name := fun heq => hn.1 (by rw [heq]; exact List.mem_map_of_mem hc)
        rw [if_neg hne]
        exact ih hn.2 h hc

/-- STEP: the shape through each rewriting. -/
theorem shaped_rename {cs : List Column} {r : Record U J} (old new : List Char)
    (h : shaped cs r = true) :
    shaped (cs.map fun c => { c with name := renamed old new c.name }) (r.rename old new) = true := by
  induction cs generalizing r with
  | nil =>
    cases r with
    | nil => rfl
    | cons _ _ => cases h
  | cons c cs ih =>
    cases r with
    | nil => cases h
    | cons e r =>
      obtain ⟨⟨hname, hadm⟩, h⟩ := shaped_cons.mp h
      exact shaped_cons.mpr ⟨⟨congrArg (renamed old new) hname, hadm⟩, ih h⟩

theorem shaped_retype {cs : List Column} {r r' : Record U J} {column : List Char} {type : ColumnType}
    (h : shaped cs r = true) (hr : Record.retype column type r = some r') :
    shaped (cs.map fun c => if c.name = column then { c with type := type } else c) r' = true := by
  induction cs generalizing r r' with
  | nil =>
    cases r with
    | nil =>
      cases hr
      rfl
    | cons _ _ => cases h
  | cons c cs ih =>
    cases r with
    | nil => cases h
    | cons e r =>
      obtain ⟨⟨hname, hadm⟩, h⟩ := shaped_cons.mp h
      obtain ⟨v, s, hv, hs, rfl⟩ := retype_cons hr
      refine shaped_cons.mpr ⟨?_, ih h hs⟩
      rw [hname] at hv
      by_cases hc : c.name = column
      · simp only [if_pos hc] at hv ⊢
        exact ⟨hname, admits_assigned hadm hv⟩
      · simp only [if_neg hc] at hv ⊢
        exact ⟨hname, Option.some.inj hv ▸ hadm⟩

theorem shaped_drop {cs : List Column} {r : Record U J} (column : List Char)
    (h : shaped cs r = true) :
    shaped (cs.filter fun c => c.name != column) (r.drop column) = true := by
  induction cs generalizing r with
  | nil =>
    cases r with
    | nil => rfl
    | cons _ _ => cases h
  | cons c cs ih =>
    cases r with
    | nil => cases h
    | cons e r =>
      obtain ⟨⟨hname, hadm⟩, h⟩ := shaped_cons.mp h
      have hrest := ih h
      unfold Record.drop at hrest ⊢
      rw [List.filter_cons, List.filter_cons, hname]
      split
      · exact shaped_cons.mpr ⟨⟨hname, hadm⟩, hrest⟩
      · exact hrest

theorem shaped_add {cs : List Column} {r : Record U J} (column : List Char) (type : ColumnType)
    (h : shaped cs r = true) :
    shaped (cs ++ [⟨column, type, false, .null⟩]) (r ++ [(column, .null)]) = true := by
  induction cs generalizing r with
  | nil =>
    cases r with
    | nil => exact shaped_cons.mpr ⟨⟨rfl, rfl⟩, rfl⟩
    | cons _ _ => cases h
  | cons c cs ih =>
    cases r with
    | nil => cases h
    | cons e r =>
      obtain ⟨hhead, h⟩ := shaped_cons.mp h
      exact shaped_cons.mpr ⟨hhead, ih h⟩

section Alterations

variable [DecidableEq U] {t t' : Relation U J}

omit [DecidableEq U] in
theorem mapRows_eq_some_iff {f : Record U J → Option (Record U J)} {rs rs' : List (Record U J)} :
    mapRows f rs = some rs' ↔ rs.map f = rs'.map some := by
  induction rs generalizing rs' with
  | nil => cases rs' <;> simp [mapRows]
  | cons r rs ih =>
    rw [mapRows, Option.bind_eq_some_iff]
    constructor
    · rintro ⟨r', hr, h⟩
      obtain ⟨rest, hrest, rfl⟩ := Option.map_eq_some_iff.mp h
      rw [List.map_cons, List.map_cons, hr, ih.mp hrest]
    · intro h
      cases rs' with
      | nil => cases h
      | cons r' rest =>
        obtain ⟨hr, hrest⟩ := List.cons.inj h
        exact ⟨r', hr, Option.map_eq_some_iff.mpr ⟨rest, ih.mpr hrest, rfl⟩⟩

/-- What an alteration makes of a table whose rows all have an image. -/
theorem alter_eq_some_iff {a : Alteration} {d : Definition} {f : Record U J → Option (Record U J)}
    {g : Record U J → Record U J} (hrun : a.run t.definition = some (d, f))
    (hf : ∀ r ∈ t.rows, f r = some (g r)) :
    t.alter a = some t' ↔ t'.definition = d ∧ t'.rows = t.rows.map g := by
  have hrows : mapRows f t.rows = some (t.rows.map g) := by
    rw [mapRows_eq_some_iff, List.map_map]
    exact List.map_congr_left hf
  rw [Relation.alter, hrun, Option.bind_some]
  show ((mapRows f t.rows).bind fun rows => Relation.build? d rows) = some t' ↔ _
  rw [hrows, Option.bind_some, Relation.build?_eq_some_iff]

/-- **It goes through** where the images fit and have the keys of the rows. -/
theorem exists_alter {a : Alteration} {d : Definition} {f : Record U J → Option (Record U J)}
    {g : Record U J → Record U J} (hrun : a.run t.definition = some (d, f))
    (hf : ∀ r ∈ t.rows, f r = some (g r))
    (hg : ∀ r ∈ t.rows, d.fits (g r) = true ∧
      (g r).get? d.primaryKey = r.get? t.definition.primaryKey) :
    ∃ t', t.alter a = some t' ∧ t'.definition = d ∧ t'.rows = t.rows.map g := by
  have hdistinct : d.Distinct (t.rows.map g) := by
    unfold Definition.Distinct
    rw [List.pairwise_map]
    refine List.Pairwise.imp_of_mem (fun hr hr' h => ?_) t.distinct
    rw [(hg _ hr).2, (hg _ hr').2]
    exact h
  have hfits : ∀ r ∈ t.rows.map g, d.fits r = true := by
    intro r hr
    obtain ⟨r₀, hr₀, rfl⟩ := List.mem_map.mp hr
    exact (hg r₀ hr₀).1
  exact ⟨⟨d, t.rows.map g, hfits, hdistinct⟩, (alter_eq_some_iff hrun hf).mpr ⟨rfl, rfl⟩, rfl, rfl⟩

/-- A column gets a name that is free. -/
theorem rename_some (old new : List Char) (hold : old ∈ t.definition.names)
    (hnew : new ∉ t.definition.names) (hused : new ∉ t.definition.used) :
    ∃ t', t.alter (.renameColumn old new) = some t' ∧ t'.definition = t.definition.rename old new ∧
      t'.rows = t.rows.map fun r => r.rename old new := by
  refine exists_alter (f := fun r => some (r.rename old new)) ?_ (fun _ _ => rfl) fun r hr => ?_
  · rw [Alteration.run, if_pos (by simp [hold, hnew])]
  · have hfits := t.fits r hr
    have hshape := shaped_of_fits hfits
    have hfree : new ∉ r.map Prod.fst := names_of_shaped hshape ▸ hnew
    have hget : ∀ c ∈ t.definition.used,
        (r.rename old new).get? (renamed old new c) = r.get? c :=
      fun c hc => get?_rename _ hfree fun he => hused (he ▸ hc)
    refine ⟨fits_of_truth hfits (shaped_rename old new hshape) fun c' hc' => ?_,
      hget _ List.mem_cons_self⟩
    obtain ⟨c, hc, rfl⟩ := List.mem_map.mp hc'
    exact ⟨c, hc, truth_about fun column hcolumn => hget column (mem_used_of_check hc hcolumn)⟩

/-- A column that nothing is about gets a type that its values can be assigned to. -/
theorem retype_some (column : List Char) (type : ColumnType) {g : Record U J → Record U J}
    (hcolumn : column ∈ t.definition.names) (hused : column ∉ t.definition.used)
    (hg : ∀ r ∈ t.rows, Record.retype column type r = some (g r)) :
    ∃ t', t.alter (.alterType column type) = some t' ∧
      t'.definition = t.definition.retype column type ∧ t'.rows = t.rows.map g := by
  refine exists_alter (f := Record.retype column type) ?_ hg fun r hr => ?_
  · rw [Alteration.run, if_pos (by simp [hcolumn])]
  · have hfits := t.fits r hr
    have hget : ∀ c ∈ t.definition.used, (g r).get? c = r.get? c :=
      fun c hc => get?_retype (hg r hr) fun he => hused (he ▸ hc)
    refine ⟨fits_of_truth hfits (shaped_retype (shaped_of_fits hfits) (hg r hr)) fun c hc => ?_,
      hget _ List.mem_cons_self⟩
    exact ⟨c, hc, truth_congr fun column hcolumn => hget column (mem_used_of_check hc hcolumn)⟩

/-- A row that cannot be assigned stops the statement. -/
theorem retype_none {column : List Char} {type : ColumnType} {r : Record U J} (hr : r ∈ t.rows)
    (h : Record.retype column type r = none) : t.alter (.alterType column type) = none := by
  rw [Option.eq_none_iff_forall_ne_some]
  intro t' hsome
  rw [Relation.alter, Option.bind_eq_some_iff] at hsome
  obtain ⟨⟨d, f⟩, hrun, hsome⟩ := hsome
  obtain ⟨rows, hrows, _⟩ := Option.bind_eq_some_iff.mp hsome
  have hf : f = Record.retype column type := by
    rw [Alteration.run] at hrun
    split at hrun
    · cases hrun
      rfl
    · cases hrun
  have hmem : f r ∈ rows.map some :=
    mapRows_eq_some_iff.mp hrows ▸ List.mem_map_of_mem hr
  rw [hf, h] at hmem
  obtain ⟨_, _, he⟩ := List.mem_map.mp hmem
  cases he

/-- A column that is not the key goes, and what is about it. -/
theorem drop_some {column : List Char} (ifExists : Bool) (hcolumn : column ∈ t.definition.names)
    (hkey : column ≠ t.definition.primaryKey) :
    ∃ t', t.alter (.dropColumn ifExists column) = some t' ∧
      t'.definition = t.definition.drop column ∧ t'.rows = t.rows.map fun r => r.drop column := by
  refine exists_alter (f := fun r => some (r.drop column)) ?_ (fun _ _ => rfl) fun r hr => ?_
  · rw [Alteration.run, if_pos (by simp [hcolumn]), if_neg hkey]
  · have hfits := t.fits r hr
    refine ⟨fits_of_truth hfits (shaped_drop column (shaped_of_fits hfits)) fun c hc => ?_,
      get?_drop hkey.symm⟩
    obtain ⟨hc, hnot⟩ := List.mem_filter.mp hc
    refine ⟨c, hc, truth_congr fun other hother => get?_drop fun he => ?_⟩
    simp [he ▸ hother] at hnot

/-- A nullable column is added, null in every row. -/
theorem add_some (column : List Char) (type : ColumnType) (ifNotExists : Bool)
    (hcolumn : column ∉ t.definition.names) (hused : column ∉ t.definition.used) :
    ∃ t', t.alter (.addColumn ifNotExists column type) = some t' ∧
      t'.definition = t.definition.add column type ∧
      t'.rows = t.rows.map fun r => r ++ [(column, .null)] := by
  refine exists_alter (f := fun r => some (r ++ [(column, .null)])) ?_ (fun _ _ => rfl) fun r hr => ?_
  · rw [Alteration.run, if_neg (by simp [hcolumn])]
  · have hfits := t.fits r hr
    have hget : ∀ c ∈ t.definition.used,
        Record.get? (r ++ [(column, Value.null)]) c = r.get? c :=
      fun c hc => get?_add fun he => hused (he ▸ hc)
    refine ⟨fits_of_truth hfits (shaped_add column type (shaped_of_fits hfits)) fun c hc => ?_,
      hget _ List.mem_cons_self⟩
    exact ⟨c, hc, truth_congr fun column hcolumn => hget column (mem_used_of_check hc hcolumn)⟩

/-- A statement that alters the table, among others. -/
theorem runAll_alter {table : List Char} {a : Alteration} {rest : List Ddl}
    (h : t.definition.table = table) (ha : t.alter a = some t') :
    runAll (some t) (.alter table a :: rest) = runAll (some t') rest := by
  rw [runAll, Ddl.run, if_pos h, ha]
  rfl

theorem runAll_alter_none {table : List Char} {a : Alteration} {rest : List Ddl}
    (h : t.definition.table = table) (ha : t.alter a = none) :
    runAll (some t) (.alter table a :: rest) = none := by
  rw [runAll, Ddl.run, if_pos h, ha]
  rfl

end Alterations

/-! ## 6. Scripts -/

/-- A migration script. -/
structure Script where
  revision : List Char
  downRevision : Option (List Char)
  upgrade : List Ddl
  downgrade : List Ddl

/-- The version that was reached, and the table. -/
structure Database (U J : Type) [DecidableEq U] where
  version : Option (List Char)
  table : Option (Relation U J)

/-- The scripts after a version; `none` where no script leads to it. -/
def pending : List Script → Option (List Char) → Option (List Script)
  | scripts, none => some scripts
  | [], some _ => none
  | s :: rest, some v => if s.revision = v then some rest else pending rest (some v)

section Scripts

variable [DecidableEq U]

def Script.up (db : Database U J) (s : Script) : Option (Database U J) :=
  (runAll db.table s.upgrade).map fun t => ⟨some s.revision, t⟩

def Script.down (db : Database U J) (s : Script) : Option (Database U J) :=
  (runAll db.table s.downgrade).map fun t => ⟨s.downRevision, t⟩

/-- Scripts, one after the other. -/
def upAll (db : Database U J) : List Script → Option (Database U J)
  | [] => some db
  | s :: rest => (s.up db).bind fun db => upAll db rest

/-- **`upgrade head`**, in one transaction: with `none` the database is what it was. -/
def upgradeHead (scripts : List Script) (db : Database U J) : Option (Database U J) :=
  (pending scripts db.version).bind (upAll db)

/-- **`downgrade -1`**, in one transaction. -/
def downgradeOne (scripts : List Script) (db : Database U J) : Option (Database U J) :=
  (scripts.find? fun s => some s.revision = db.version).bind (Script.down db)

end Scripts

end Sql
