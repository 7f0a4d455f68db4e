/-
  File:      InvoiceOcr/Sql/Statement.lean
  Subject:   STATEMENTS AS TEXT. A fragment of SQL over one table: how a text is read, and what it does
             with its parameters to the rows of the table. Nothing here names a program.

  * `Token`, `lex` -- words, parameters, texts and signs; a word that is not quoted is in small letters;
  * `Expr`, `Statement`, `parse` -- `INSERT`, `UPDATE`, `SELECT *`, and a `DELETE` that counts;
  * `Value`, `Expr.eval` -- nulls and the three truth values; `none` is an error of the server;
  * `Schema`, `Statement.run` -- the rows that come back, and the rows of the table afterwards;
  * **`run_update`**, **`run_select`**, **`run_deleteCount`** -- on rows that are images of values of any
    type, a statement is the map or the filter that its parts are on one image.

  Left out: what the server refuses for a value's sake, a NUL in a text or in `jsonb`; and that `jsonb`
  keeps no order of keys.
-/
import Mathlib.Data.List.Basic

namespace Sql

/-! ## 1. Tokens -/

inductive Token where
  | word (s : List Char)
  | param (n : Nat)
  | text (s : List Char)
  | sign (c : Char)
  deriving DecidableEq, Repr

/-- What the lexer is in. -/
inductive Mode where
  | none
  | word (s : List Char)
  | param (n : Nat)
  | text (s : List Char)

/-- The token that ends where it is. A text does not end without its quote. -/
def Mode.close : Mode → Option (List Token)
  | .none => some []
  | .word s => some [.word s]
  | .param n => some [.param n]
  | .text _ => Option.none

def isWordChar (c : Char) : Bool := c.isAlphanum || c = '_'

def isGap (c : Char) : Bool := c = ' ' || c = '\n' || c = '\t' || c = '\r'

/-- The token that ends before `c`, and what begins with `c`. -/
def Mode.turn (m : Mode) (c : Char) : Option (List Token × Mode) :=
  m.close.map fun done =>
    if isGap c then (done, .none)
    else if c = '\'' then (done, .text [])
    else if c = '$' then (done, .param 0)
    else if isWordChar c then (done, .word [c.toLower])
    else (done ++ [.sign c], .none)

/-- One character. -/
def Mode.read (m : Mode) (c : Char) : Option (List Token × Mode) :=
  match m with
  | .text s => if c = '\'' then some ([.text s], .none) else some ([], .text (s ++ [c]))
  | .word s => if isWordChar c then some ([], .word (s ++ [c.toLower])) else m.turn c
  | .param n =>
    if c.isDigit then some ([], .param (10 * n + (c.toNat - '0'.toNat))) else m.turn c
  | .none => m.turn c

def lexFrom (m : Mode) : List Char → Option (List Token)
  | [] => m.close
  | c :: cs => (m.read c).bind fun (done, m') => (lexFrom m' cs).map fun ts => done ++ ts

/-- The tokens of a text. -/
def lex (s : List Char) : Option (List Token) := lexFrom .none s

/-! ## 2. Syntax -/

inductive Expr where
  | column (name : List Char)
  | param (n : Nat)
  | text (s : List Char)
  | now
  | cast (e : Expr) (type : List Char)
  | sub (a b : Expr)
  | eq (a b : Expr)
  | lt (a b : Expr)
  | oneOf (e : Expr) (texts : List (List Char))
  | and (a b : Expr)
  | or (a b : Expr)
  deriving DecidableEq, Repr

inductive Statement where
  | insert (table : List Char) (columns : List (List Char)) (values : List Expr)
  | update (table : List Char) (sets : List (List Char × Expr)) (cond : Expr)
  /-- `SELECT * FROM … WHERE …`. -/
  | select (table : List Char) (cond : Expr)
  /-- `WITH x AS (DELETE FROM … WHERE … RETURNING 1) SELECT count(*) AS n FROM x`. -/
  | deleteCount (table : List Char) (cond : Expr)
  deriving DecidableEq, Repr

abbrev Parser (α : Type) := List Token → Option (α × List Token)

/-- The given token. -/
def token (t : Token) : Parser Unit
  | t' :: ts => if t' = t then some ((), ts) else none
  | [] => none

def keyword (s : String) : Parser Unit := token (.word s.toList)

def name : Parser (List Char)
  | .word s :: ts => some (s, ts)
  | _ => none

/-- Items with commas between them; the fuel is the number of items at most. -/
def commas {α : Type} (item : Parser α) : Nat → Parser (List α)
  | 0, _ => none
  | fuel + 1, ts =>
    match item ts with
    | none => none
    | some (a, .sign ',' :: ts) => (commas item fuel ts).map fun (as, ts) => (a :: as, ts)
    | some (a, ts) => some ([a], ts)

def parens {α : Type} (body : Parser α) : Parser α := fun ts => do
  let ((), ts) ← token (.sign '(') ts
  let (a, ts) ← body ts
  let ((), ts) ← token (.sign ')') ts
  return (a, ts)

/-- A cast, or nothing. -/
def castTail (e : Expr) : Parser Expr
  | .sign ':' :: .sign ':' :: .word type :: ts => some (.cast e type, ts)
  | ts => some (e, ts)

/-- A column, `now()`, a parameter or a text. -/
def operand : Parser Expr
  | .word s :: .sign '(' :: .sign ')' :: ts => if s = "now".toList then some (.now, ts) else none
  | .word s :: ts => castTail (.column s) ts
  | .param n :: ts => castTail (.param n) ts
  | .text s :: ts => castTail (.text s) ts
  | _ => none

/-- An operand, or one less another. -/
def sum : Parser Expr := fun ts => do
  let (a, ts) ← operand ts
  match ts with
  | .sign '-' :: ts =>
    let (b, ts) ← operand ts
    return (.sub a b, ts)
  | _ => return (a, ts)

def textItem : Parser (List Char)
  | .text s :: ts => some (s, ts)
  | _ => none

def comparison : Parser Expr := fun ts => do
  let (a, ts) ← sum ts
  match ts with
  | .sign '=' :: ts =>
    let (b, ts) ← sum ts
    return (.eq a b, ts)
  | .sign '<' :: ts =>
    let (b, ts) ← sum ts
    return (.lt a b, ts)
  | .word ['i', 'n'] :: ts =>
    let (texts, ts) ← parens (commas textItem ts.length) ts
    return (.oneOf a texts, ts)
  | _ => none

/-- A comparison, or a condition in parentheses. -/
def factor (cond : Parser Expr) : Parser Expr
  | .sign '(' :: ts => parens cond (.sign '(' :: ts)
  | ts => comparison ts

/-- Factors with `AND` between them, in groups with `OR` between them. -/
def condition : Nat → Parser Expr
  | 0, _ => none
  | fuel + 1, ts => do
    let (a, ts) ← factor (condition fuel) ts
    match ts with
    | .word ['a', 'n', 'd'] :: ts =>
      let (b, ts) ← factor (condition fuel) ts
      match ts with
      | .word ['o', 'r'] :: ts =>
        let (c, ts) ← condition fuel ts
        return (.or (.and a b) c, ts)
      | _ => return (.and a b, ts)
    | .word ['o', 'r'] :: ts =>
      let (b, ts) ← condition fuel ts
      return (.or a b, ts)
    | _ => return (a, ts)

def whereClause : Parser Expr := fun ts => do
  let ((), ts) ← keyword "where" ts
  condition ts.length ts

/-- `column = …`. -/
def assignment : Parser (List Char × Expr) := fun ts => do
  let (column, ts) ← name ts
  let ((), ts) ← token (.sign '=') ts
  let (e, ts) ← sum ts
  return ((column, e), ts)

def insertTail : Parser Statement := fun ts => do
  let ((), ts) ← keyword "into" ts
  let (table, ts) ← name ts
  let (columns, ts) ← parens (commas name ts.length) ts
  let ((), ts) ← keyword "values" ts
  let (values, ts) ← parens (commas sum ts.length) ts
  return (.insert table columns values, ts)

def updateTail : Parser Statement := fun ts => do
  let (table, ts) ← name ts
  let ((), ts) ← keyword "set" ts
  let (sets, ts) ← commas assignment ts.length ts
  let (cond, ts) ← whereClause ts
  return (.update table sets cond, ts)

def selectTail : Parser Statement := fun ts => do
  let ((), ts) ← token (.sign '*') ts
  let ((), ts) ← keyword "from" ts
  let (table, ts) ← name ts
  let (cond, ts) ← whereClause ts
  return (.select table cond, ts)

/-- `DELETE FROM … WHERE … RETURNING 1`. -/
def deletion : Parser (List Char × Expr) := fun ts => do
  let ((), ts) ← keyword "delete" ts
  let ((), ts) ← keyword "from" ts
  let (table, ts) ← name ts
  let (cond, ts) ← whereClause ts
  let ((), ts) ← keyword "returning" ts
  let ((), ts) ← keyword "1" ts
  return ((table, cond), ts)

def withTail : Parser Statement := fun ts => do
  let (query, ts) ← name ts
  let ((), ts) ← keyword "as" ts
  let ((table, cond), ts) ← parens deletion ts
  let ((), ts) ← keyword "select" ts
  let ((), ts) ← keyword "count" ts
  let ((), ts) ← parens (token (.sign '*')) ts
  let ((), ts) ← keyword "as" ts
  let (_, ts) ← name ts
  let ((), ts) ← keyword "from" ts
  let ((), ts) ← token (.word query) ts
  return (.deleteCount table cond, ts)

/-- A statement, by its first word. -/
def statement : Parser Statement
  | .word s :: ts =>
    if s = "insert".toList then insertTail ts
    else if s = "update".toList then updateTail ts
    else if s = "select".toList then selectTail ts
    else if s = "with".toList then withTail ts
    else none
  | _ => none

/-- **The statement a text is**, if the whole of it is one. -/
def parse (s : List Char) : Option Statement :=
  (lex s).bind fun ts =>
    match statement ts with
    | some (stmt, []) => some stmt
    | _ => none

/-! ## 3. Values -/

variable {U J : Type}

/-- A value of a column or a parameter. Times and spans are in one unit. -/
inductive Value (U J : Type) where
  | null
  | bool (b : Bool)
  | uuid (u : U)
  | text (s : List Char)
  | json (j : J)
  | time (t : Int)
  | span (d : Int)

abbrev Record (U J : Type) := List (List Char × Value U J)

/-- The value of a column. -/
def Record.get? (r : Record U J) (column : List Char) : Option (Value U J) :=
  (r.find? fun entry => entry.1 = column).map (·.2)

/-- The record with one column assigned; an unknown column is an error. -/
def Record.put (r : Record U J) (column : List Char) (v : Value U J) : Option (Record U J) :=
  if (r.map (·.1)).contains column then
    some (r.map fun entry => if entry.1 = column then (entry.1, v) else entry)
  else none

/-- `a AND b` of truth values, `none` being unknown. -/
def both : Option Bool → Option Bool → Option Bool
  | some false, _ => some false
  | _, some false => some false
  | some true, some true => some true
  | _, _ => none

/-- `a OR b`. -/
def either : Option Bool → Option Bool → Option Bool
  | some true, _ => some true
  | _, some true => some true
  | some false, some false => some false
  | _, _ => none

/-- A value as a truth value; any other is an error. -/
def Value.truth : Value U J → Option (Option Bool)
  | .null => some none
  | .bool b => some (some b)
  | _ => none

/-- A truth value as a value. -/
def ofTruth : Option Bool → Value U J
  | none => .null
  | some b => .bool b

/-- `v::type`. -/
def Value.cast (readJson : List Char → Option J) (v : Value U J) (type : List Char) :
    Option (Value U J) :=
  match v with
  | .null => some .null
  | .text s => if type = "jsonb".toList then (readJson s).map .json else none
  | .span d => if type = "interval".toList then some (.span d) else none
  | _ => none

def Value.minus : Value U J → Value U J → Option (Value U J)
  | .time t, .span d => some (.time (t - d))
  | .null, _ => some .null
  | _, .null => some .null
  | _, _ => none

/-- `a = b`, unknown with a null. -/
def Value.equal [DecidableEq U] : Value U J → Value U J → Option (Value U J)
  | .null, _ => some .null
  | _, .null => some .null
  | .uuid u, .uuid u' => some (.bool (u = u'))
  | .text s, .text s' => some (.bool (s = s'))
  | _, _ => none

def Value.less : Value U J → Value U J → Option (Value U J)
  | .null, _ => some .null
  | _, .null => some .null
  | .time t, .time t' => some (.bool (t < t'))
  | _, _ => none

/-- `v IN (…)`. -/
def Value.isOneOf (v : Value U J) (texts : List (List Char)) : Option (Value U J) :=
  match v with
  | .null => some .null
  | .text s => some (.bool (texts.contains s))
  | _ => none

/-- What a statement is run with. -/
structure Context (U J : Type) where
  params : List (Value U J)
  now : Int
  readJson : List Char → Option J

/-- **The value of an expression** on a record. -/
def Expr.eval [DecidableEq U] (ctx : Context U J) (r : Record U J) : Expr → Option (Value U J)
  | .column c => r.get? c
  | .param n => if n = 0 then none else ctx.params[n - 1]?
  | .text s => some (.text s)
  | .now => some (.time ctx.now)
  | .cast e type => (e.eval ctx r).bind fun v => v.cast ctx.readJson type
  | .sub a b => (a.eval ctx r).bind fun x => (b.eval ctx r).bind fun y => x.minus y
  | .eq a b => (a.eval ctx r).bind fun x => (b.eval ctx r).bind fun y => x.equal y
  | .lt a b => (a.eval ctx r).bind fun x => (b.eval ctx r).bind fun y => x.less y
  | .oneOf e texts => (e.eval ctx r).bind fun v => v.isOneOf texts
  | .and a b =>
    ((a.eval ctx r).bind Value.truth).bind fun x =>
      ((b.eval ctx r).bind Value.truth).map fun y => ofTruth (both x y)
  | .or a b =>
    ((a.eval ctx r).bind Value.truth).bind fun x =>
      ((b.eval ctx r).bind Value.truth).map fun y => ofTruth (either x y)

/-- The condition holds of a record: it is true, not unknown. -/
def Expr.holds [DecidableEq U] (ctx : Context U J) (r : Record U J) (cond : Expr) : Option Bool :=
  ((cond.eval ctx r).bind Value.truth).map fun x => x = some true

section Conditions

variable [DecidableEq U] {ctx : Context U J} {r : Record U J} {a b : Expr} {x y : Option Bool}

omit [DecidableEq U] in
theorem truth_ofTruth (x : Option Bool) : (ofTruth x : Value U J).truth = some x := by
  cases x <;> rfl

/-- `AND` and `OR` of two conditions, by their truth values. -/
theorem truth_and (ha : (a.eval ctx r).bind Value.truth = some x)
    (hb : (b.eval ctx r).bind Value.truth = some y) :
    ((Expr.and a b).eval ctx r).bind Value.truth = some (both x y) := by
  rw [Expr.eval, ha, hb]
  exact truth_ofTruth _

theorem truth_or (ha : (a.eval ctx r).bind Value.truth = some x)
    (hb : (b.eval ctx r).bind Value.truth = some y) :
    ((Expr.or a b).eval ctx r).bind Value.truth = some (either x y) := by
  rw [Expr.eval, ha, hb]
  exact truth_ofTruth _

theorem holds_of_truth (ha : (a.eval ctx r).bind Value.truth = some x) :
    a.holds ctx r = some (decide (x = some true)) := by
  rw [Expr.holds, ha]
  rfl

end Conditions

/-! ## 4. Statements on rows -/

/-- What a column is where an `INSERT` leaves it out. -/
inductive Default where
  | null
  | now
  deriving DecidableEq

structure Schema where
  table : List Char
  columns : List (List Char × Default)

def Default.value (ctx : Context U J) : Default → Value U J
  | .null => .null
  | .now => .time ctx.now

/-- What comes back. -/
inductive Answer (U J : Type) where
  | rows (records : List (Record U J))
  | count (n : Nat)

/-- The record after the assignments, each with the values the row had before the statement. -/
def assign [DecidableEq U] (ctx : Context U J) (old : Record U J) (r : Record U J) :
    List (List Char × Expr) → Option (Record U J)
  | [] => some r
  | (column, e) :: sets =>
    (e.eval ctx old).bind fun v => (r.put column v).bind fun r => assign ctx old r sets

/-- One assignment. -/
theorem assign_cons [DecidableEq U] {ctx : Context U J} {old r : Record U J} {column : List Char}
    {e : Expr} {sets : List (List Char × Expr)} (v : Value U J) (r' : Record U J)
    (he : e.eval ctx old = some v) (hput : r.put column v = some r') :
    assign ctx old r ((column, e) :: sets) = assign ctx old r' sets := by
  rw [assign, he, Option.bind_some, hput, Option.bind_some]

/-- A row of an `UPDATE`. -/
def updateRow [DecidableEq U] (ctx : Context U J) (sets : List (List Char × Expr)) (cond : Expr)
    (r : Record U J) : Option (Record U J) :=
  (cond.holds ctx r).bind fun b => if b then assign ctx r r sets else some r

/-- The rows a condition holds of. -/
def filterRows [DecidableEq U] (ctx : Context U J) (cond : Expr) :
    List (Record U J) → Option (List (Record U J))
  | [] => some []
  | r :: rs =>
    (cond.holds ctx r).bind fun b =>
      (filterRows ctx cond rs).map fun kept => if b then r :: kept else kept

/-- The rows it does not hold of. -/
def dropRows [DecidableEq U] (ctx : Context U J) (cond : Expr) :
    List (Record U J) → Option (List (Record U J))
  | [] => some []
  | r :: rs =>
    (cond.holds ctx r).bind fun b =>
      (dropRows ctx cond rs).map fun kept => if b then kept else r :: kept

/-- The rows of an `UPDATE`. -/
def updateRows [DecidableEq U] (ctx : Context U J) (sets : List (List Char × Expr)) (cond : Expr) :
    List (Record U J) → Option (List (Record U J))
  | [] => some []
  | r :: rs =>
    (updateRow ctx sets cond r).bind fun r' => (updateRows ctx sets cond rs).map fun rs' => r' :: rs'

/-- A new row: the columns of the schema with their defaults, then the values given. -/
def newRow [DecidableEq U] (schema : Schema) (ctx : Context U J) (columns : List (List Char))
    (values : List Expr) : Option (Record U J) :=
  if columns.length = values.length then
    assign ctx [] (schema.columns.map fun c => (c.1, c.2.value ctx)) (columns.zip values)
  else none

/-- **What a statement does**: what comes back, and the rows afterwards. -/
def Statement.run [DecidableEq U] (schema : Schema) (ctx : Context U J) (rows : List (Record U J)) :
    Statement → Option (Answer U J × List (Record U J))
  | .insert table columns values =>
    if table = schema.table then
      (newRow schema ctx columns values).map fun r => (.rows [], r :: rows)
    else none
  | .update table sets cond =>
    if table = schema.table then (updateRows ctx sets cond rows).map fun rows' => (.rows [], rows')
    else none
  | .select table cond =>
    if table = schema.table then (filterRows ctx cond rows).map fun found => (.rows found, rows)
    else none
  | .deleteCount table cond =>
    if table = schema.table then
      (dropRows ctx cond rows).map fun kept => (.count (rows.length - kept.length), kept)
    else none

/-- A text, read and run. -/
def exec [DecidableEq U] (schema : Schema) (ctx : Context U J) (rows : List (Record U J))
    (sql : List Char) : Option (Answer U J × List (Record U J)) :=
  (parse sql).bind fun stmt => stmt.run schema ctx rows

/-! ## 5. Rows that are images -/

section Images

variable {R : Type} [DecidableEq U] {S : Schema} {ctx : Context U J} {image : R → Record U J}
  {cond : Expr} {sets : List (List Char × Expr)} {p : R → Bool} {f : R → R}

/-- A row of an `UPDATE` that is an image. -/
theorem updateRow_image {r : R} (hp : cond.holds ctx (image r) = some (p r))
    (hf : p r = true → assign ctx (image r) (image r) sets = some (image (f r))) :
    updateRow ctx sets cond (image r) = some (image (if p r then f r else r)) := by
  unfold updateRow
  rw [hp]
  cases hpr : p r with
  | true => exact hf hpr
  | false => rfl

/-- **`UPDATE` is a map.** -/
theorem run_update (hp : ∀ r, cond.holds ctx (image r) = some (p r))
    (hf : ∀ r, p r = true → assign ctx (image r) (image r) sets = some (image (f r))) (rs : List R) :
    (Statement.update S.table sets cond).run S ctx (rs.map image) =
      some (.rows [], (rs.map fun r => if p r then f r else r).map image) := by
  have hrows : updateRows ctx sets cond (rs.map image) =
      some ((rs.map fun r => if p r then f r else r).map image) := by
    induction rs with
    | nil => rfl
    | cons r rs ih =>
      simp only [List.map_cons, updateRows, updateRow_image (hp r) (hf r), ih]
      rfl
  rw [Statement.run, if_pos rfl, hrows]
  rfl

/-- **`SELECT` is a filter.** -/
theorem run_select (hp : ∀ r, cond.holds ctx (image r) = some (p r)) (rs : List R) :
    (Statement.select S.table cond).run S ctx (rs.map image) =
      some (.rows ((rs.filter p).map image), rs.map image) := by
  have hrows : filterRows ctx cond (rs.map image) = some ((rs.filter p).map image) := by
    induction rs with
    | nil => rfl
    | cons r rs ih =>
      simp only [List.map_cons, filterRows, hp r, ih, Option.bind_some, Option.map_some,
        List.filter_cons]
      cases p r <;> rfl
  rw [Statement.run, if_pos rfl, hrows]
  rfl

/-- **`DELETE` keeps the others, and counts.** -/
theorem run_deleteCount (hp : ∀ r, cond.holds ctx (image r) = some (p r)) (rs : List R) :
    (Statement.deleteCount S.table cond).run S ctx (rs.map image) =
      some (.count (rs.filter p).length, (rs.filter fun r => !p r).map image) := by
  have hrows : dropRows ctx cond (rs.map image) = some ((rs.filter fun r => !p r).map image) := by
    induction rs with
    | nil => rfl
    | cons r rs ih =>
      simp only [List.map_cons, dropRows, hp r, ih, Option.bind_some, Option.map_some,
        List.filter_cons]
      cases p r <;> rfl
  have hcount : (rs.filter p).length + (rs.filter fun r => !p r).length = rs.length := by
    have h := List.length_eq_length_filter_add (l := rs) p
    omega
  rw [Statement.run, if_pos rfl, hrows, Option.map_some, List.length_map, List.length_map,
    show rs.length - (rs.filter fun r => !p r).length = (rs.filter p).length by omega]

end Images

end Sql
