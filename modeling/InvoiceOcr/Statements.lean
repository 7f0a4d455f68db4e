/-
  File:      InvoiceOcr/Statements.lean
  Subject:   THE STATEMENTS OF THE POSTGRES CLIENT, as the texts and the parameters that
             src/storage/postgres_client.py sends (the table is that of src/migrations at its head).

  * `JobRow.record`, `jobsSchema` -- a row as the table has it; `rowToRecord` -- `_row_to_record`, and
    **`rowToRecord_record`**: it reads back what a row is;
  * `UpdateBuilder`, `updateJobStatement` -- the text `update_job_status` puts together, with its
    placeholders;
  * `Op.statement?` -- the text and the parameters of each call;
  * `parse_…`, `holds_…`, `assign_…` -- what each text is, its condition and its assignments on a row;
  * **`statement_effect`** -- the effect of a call on the jobs table is what its text does to the rows.
-/
import InvoiceOcr.Sql.Statement
import InvoiceOcr.Storage

namespace InvoiceOcr

open PyJson Async

/-! ## 1. Rows -/

abbrev SqlValue := Sql.Value Uuid Json

abbrev SqlRecord := Sql.Record Uuid Json

/-- A nullable column. -/
def nullable {α : Type} (f : α → SqlValue) : Option α → SqlValue
  | none => .null
  | some a => f a

/-- The columns of the table. -/
def jobsSchema : Sql.Schema where
  table := "jobs".toList
  columns :=
    [("job_id".toList, .null), ("status".toList, .null), ("phash".toList, .null),
     ("image_url".toList, .null), ("result".toList, .null), ("error_code".toList, .null),
     ("error_message".toList, .null), ("created_at".toList, .now), ("updated_at".toList, .now)]

/-- A row as the table has it. -/
def JobRow.record (r : JobRow) : SqlRecord :=
  [("job_id".toList, .uuid r.jobId), ("status".toList, .text r.status.value),
   ("phash".toList, nullable .text r.phash), ("image_url".toList, .text r.imageUrl),
   ("result".toList, nullable (fun d => .json (.obj d)) r.result),
   ("error_code".toList, nullable .text r.errorCode),
   ("error_message".toList, nullable .text r.errorMessage),
   ("created_at".toList, .time r.createdAt), ("updated_at".toList, .time r.updatedAt)]

/-- `JobStatus(value)`. -/
def JobStatus.ofValue (s : Str) : Option JobStatus :=
  [.pending, .processing, .succeeded, .failedPermanent, .failedTransient].find? fun status =>
    status.value = s

/-- A column that is a text or NULL. -/
def textOrNull : SqlValue → Option (Option Str)
  | .null => some none
  | .text s => some (some s)
  | _ => none

/-- `row["result"]`: asyncpg gives JSONB as its text, and `json.loads` reads it. -/
def resultOrNull : SqlValue → Option (Option Dict)
  | .null => some none
  | .json v =>
    match loads (dumps v) with
    | some (.obj d) => some (some d)
    | _ => none
  | _ => none

/-- `_row_to_record`. -/
def rowToRecord (row : SqlRecord) : Option JobRow := do
  let .uuid jobId ← row.get? "job_id".toList | none
  let .text status ← row.get? "status".toList | none
  let status ← JobStatus.ofValue status
  let phash ← (row.get? "phash".toList).bind textOrNull
  let .text imageUrl ← row.get? "image_url".toList | none
  let result ← (row.get? "result".toList).bind resultOrNull
  let errorCode ← (row.get? "error_code".toList).bind textOrNull
  let errorMessage ← (row.get? "error_message".toList).bind textOrNull
  let .time createdAt ← row.get? "created_at".toList | none
  let .time updatedAt ← row.get? "updated_at".toList | none
  return { jobId, status, phash, imageUrl, result, errorCode, errorMessage,
           createdAt := createdAt.toNat, updatedAt := updatedAt.toNat }

/-! ## 2. Texts -/

/-- The texts of `sets`, the parameters, and `idx`. -/
structure UpdateBuilder (V : Type) where
  sets : List Str
  params : List V
  idx : Nat

/-- `if value is not None: sets.append(…); params.append(…); idx += 1`. -/
def UpdateBuilder.add {V : Type} (b : UpdateBuilder V) (column suffix : Str) :
    Option V → UpdateBuilder V
  | none => b
  | some v =>
    { sets := b.sets ++ [column ++ " = $".toList ++ natStr b.idx ++ suffix]
      params := b.params ++ [v]
      idx := b.idx + 1 }

/-- The assignments of `update_job_status`. -/
def updateBuilder {V : Type} (jobId status : V) (result errorCode errorMessage phash : Option V) :
    UpdateBuilder V :=
  let b : UpdateBuilder V :=
    ⟨["status = $2".toList, "updated_at = now()".toList], [jobId, status], 3⟩
  let b := b.add "result".toList "::jsonb".toList result
  let b := b.add "error_code".toList [] errorCode
  let b := b.add "error_message".toList [] errorMessage
  b.add "phash".toList [] phash

/-- `f"UPDATE jobs SET {', '.join(sets)} WHERE job_id = $1"`. -/
def UpdateBuilder.sql {V : Type} (b : UpdateBuilder V) : Str :=
  "UPDATE jobs SET ".toList ++ List.intercalate ", ".toList b.sets ++ " WHERE job_id = $1".toList

/-- `update_job_status`: the text and the parameters. -/
def updateJobStatement (jobId : Uuid) (set : JobSet) : Str × List SqlValue :=
  let b := updateBuilder (.uuid jobId) (.text set.status.value)
    (set.result.map fun d => .text (dumps (.obj d))) (set.errorCode.map .text)
    (set.errorMessage.map .text) (set.phash.map .text)
  (b.sql, b.params)

/-- A line of a text in triple quotes. -/
def line (indent : Nat) (s : String) : Str := List.replicate indent ' ' ++ s.toList ++ ['\n']

def createJobSql : Str :=
  ['\n'] ++ line 16 "INSERT INTO jobs (job_id, status, image_url)" ++ line 16 "VALUES ($1, $2, $3)" ++
    List.replicate 16 ' '

def touchJobSql : Str := "UPDATE jobs SET updated_at = now() WHERE job_id = $1".toList

def getJobSql : Str := "SELECT * FROM jobs WHERE job_id = $1".toList

def staleJobsSql : Str :=
  ['\n'] ++ line 16 "SELECT * FROM jobs" ++
    line 17 "WHERE (status = 'PROCESSING' AND updated_at < now() - $1::interval)" ++
    line 20 "OR (status = 'PENDING'    AND created_at < now() - $2::interval)" ++
    List.replicate 16 ' '

def purgeJobsSql : Str :=
  ['\n'] ++ line 16 "WITH deleted AS (" ++ line 20 "DELETE FROM jobs" ++
    line 21 "WHERE status IN ('SUCCEEDED','FAILED_PERMANENT','FAILED_TRANSIENT')" ++
    line 23 "AND updated_at < now() - $1::interval" ++ line 21 "RETURNING 1" ++ line 16 ")" ++
    line 16 "SELECT count(*) AS n FROM deleted" ++ List.replicate 16 ' '

/-- The text and the parameters of a call on the jobs table. -/
def Op.statement? : Op → Option (Str × List SqlValue)
  | .insertJob j status url => some (createJobSql, [.uuid j, .text status.value, .text url])
  | .updateJob j set => some (updateJobStatement j set)
  | .touchJob j => some (touchJobSql, [.uuid j])
  | .selectJob j => some (getJobSql, [.uuid j])
  | .selectStale p q => some (staleJobsSql, [.span p, .span q])
  | .deleteOld p => some (purgeJobsSql, [.span p])
  | _ => none

/-- What comes back for an answer. -/
def Op.outcome : (o : Op) → Ans o → Sql.Answer Uuid Json
  | .selectJob _, a => .rows (a.toList.map JobRow.record)
  | .selectStale _ _, a => .rows (a.map JobRow.record)
  | .deleteOld _, n => .count n
  | _, _ => .rows []

/-- `json.dumps` writes the result, and Postgres reads it. -/
def Op.Storable : Op → Prop
  | .updateJob _ set => ∀ d, set.result = some d → Plain (.obj d)
  | _ => True

/-- Postgres with the parameters of a statement. -/
def sqlContext (params : List SqlValue) (now : Nat) : Sql.Context Uuid Json := ⟨params, now, loads⟩

/-! ## 3. What the texts are -/

/-- `job_id = $1`. -/
def byJobId : Sql.Expr := .eq (.column "job_id".toList) (.param 1)

/-- `column < now() - $n::interval`. -/
def olderThan (column : Str) (n : Nat) : Sql.Expr :=
  .lt (.column column) (.sub .now (.cast (.param n) "interval".toList))

/-- The assignments of an update with the given columns, from parameter `n` on. -/
def columnSets (n : Nat) : List (Str × Bool × Bool) → List (Str × Sql.Expr)
  | [] => []
  | (column, json, present) :: rest =>
    if present then
      (column, if json then .cast (.param n) "jsonb".toList else .param n) :: columnSets (n + 1) rest
    else columnSets n rest

def updateSets (result errorCode errorMessage phash : Bool) : List (Str × Sql.Expr) :=
  ("status".toList, .param 2) :: ("updated_at".toList, .now) ::
    columnSets 3 [("result".toList, true, result), ("error_code".toList, false, errorCode),
      ("error_message".toList, false, errorMessage), ("phash".toList, false, phash)]

/-- Whether a column is given. -/
def given (present : Bool) : Option Unit := if present then some () else none

theorem parse_update : ∀ result errorCode errorMessage phash : Bool,
    Sql.parse (updateBuilder () () (given result) (given errorCode) (given errorMessage)
        (given phash)).sql =
      some (.update jobsSchema.table (updateSets result errorCode errorMessage phash) byJobId) := by
  decide +kernel

/-- The text depends on which columns are given, not on their values. -/
theorem updateJobStatement_sql (j : Uuid) (set : JobSet) :
    (updateJobStatement j set).1 =
      (updateBuilder () () (given set.result.isSome) (given set.errorCode.isSome)
        (given set.errorMessage.isSome) (given set.phash.isSome)).sql := by
  obtain ⟨status, result, errorCode, errorMessage, phash⟩ := set
  cases result <;> cases errorCode <;> cases errorMessage <;> cases phash <;> rfl

theorem parse_createJob : Sql.parse createJobSql =
    some (.insert jobsSchema.table ["job_id".toList, "status".toList, "image_url".toList]
      [.param 1, .param 2, .param 3]) := by decide +kernel

theorem parse_touchJob : Sql.parse touchJobSql =
    some (.update jobsSchema.table [("updated_at".toList, .now)] byJobId) := by decide +kernel

theorem parse_getJob : Sql.parse getJobSql = some (.select jobsSchema.table byJobId) := by
  decide +kernel

theorem parse_staleJobs : Sql.parse staleJobsSql =
    some (.select jobsSchema.table
      (.or (.and (.eq (.column "status".toList) (.text "PROCESSING".toList))
          (olderThan "updated_at".toList 1))
        (.and (.eq (.column "status".toList) (.text "PENDING".toList))
          (olderThan "created_at".toList 2)))) := by decide +kernel

theorem parse_purgeJobs : Sql.parse purgeJobsSql =
    some (.deleteCount jobsSchema.table
      (.and (.oneOf (.column "status".toList)
          ["SUCCEEDED".toList, "FAILED_PERMANENT".toList, "FAILED_TRANSIENT".toList])
        (olderThan "updated_at".toList 1))) := by decide +kernel

/-! ## 4. Conditions and assignments on a row -/

section Rows

variable {params : List SqlValue} {now p q : Nat} {j : Uuid} {r : JobRow}

theorem holds_byJobId (hp : params.head? = some (.uuid j)) (r : JobRow) :
    byJobId.holds (sqlContext params now) r.record = some (decide (r.jobId = j)) := by
  cases params with
  | nil => cases hp
  | cons v params =>
    cases hp
    show some (decide (some (decide (r.jobId = j)) = some true)) = _
    by_cases h : r.jobId = j <;> simp [h]

theorem value_eq_iff {a b : JobStatus} : a.value = b.value ↔ a = b := by
  constructor
  · intro h
    cases a <;> cases b <;> first | rfl | exact absurd h (by decide)
  · exact fun h => h ▸ rfl

theorem less_iff (u now p : Nat) : ((u : Int) < (now : Int) - (p : Int)) ↔ u + p < now := by omega

/-- **`WHERE` of `select_stale_jobs`.** -/
theorem holds_stale (r : JobRow) :
    (Sql.Expr.or (.and (.eq (.column "status".toList) (.text JobStatus.processing.value))
        (olderThan "updated_at".toList 1))
      (.and (.eq (.column "status".toList) (.text JobStatus.pending.value))
        (olderThan "created_at".toList 2))).holds (sqlContext [.span p, .span q] now) r.record =
      some (r.isStale now p q) := by
  have hvalue : ∀ s : JobStatus, decide (r.status.value = s.value) = decide (r.status = s) :=
    fun s => decide_eq_decide.mpr value_eq_iff
  rw [Sql.holds_of_truth (Sql.truth_or
    (Sql.truth_and (x := some (decide (r.status.value = JobStatus.processing.value)))
      (y := some (decide ((r.updatedAt : Int) < now - p))) rfl rfl)
    (Sql.truth_and (x := some (decide (r.status.value = JobStatus.pending.value)))
      (y := some (decide ((r.createdAt : Int) < now - q))) rfl rfl)),
    hvalue, hvalue, decide_eq_decide.mpr (less_iff r.updatedAt now p),
    decide_eq_decide.mpr (less_iff r.createdAt now q)]
  unfold JobRow.isStale
  cases decide (r.status = .processing) <;> cases decide (r.updatedAt + p < now) <;>
    cases decide (r.status = .pending) <;> cases decide (r.createdAt + q < now) <;> rfl

/-- **`WHERE` of `purge_old_job_records`.** -/
theorem holds_old (r : JobRow) :
    (Sql.Expr.and (.oneOf (.column "status".toList)
        ["SUCCEEDED".toList, "FAILED_PERMANENT".toList, "FAILED_TRANSIENT".toList])
      (olderThan "updated_at".toList 1)).holds (sqlContext [.span p] now) r.record =
      some (r.isOld now p) := by
  have hterminal : ["SUCCEEDED".toList, "FAILED_PERMANENT".toList, "FAILED_TRANSIENT".toList].contains
      r.status.value = r.status.isTerminal := by cases r.status <;> decide
  rw [Sql.holds_of_truth (Sql.truth_and
    (x := some (["SUCCEEDED".toList, "FAILED_PERMANENT".toList, "FAILED_TRANSIENT".toList].contains
      r.status.value))
    (y := some (decide ((r.updatedAt : Int) < now - p))) rfl rfl),
    hterminal, decide_eq_decide.mpr (less_iff r.updatedAt now p)]
  unfold JobRow.isOld
  cases r.status.isTerminal <;> cases decide (r.updatedAt + p < now) <;> rfl

theorem assign_touch (r : JobRow) :
    Sql.assign (sqlContext params now) r.record r.record [("updated_at".toList, .now)] =
      some ((touchRow now).run r).record := rfl

/-- **The assignments of `update_job_status`**, each from its own parameter. -/
theorem assign_update {set : JobSet} (h : (Op.updateJob j set).Storable) (r : JobRow) :
    Sql.assign (sqlContext (updateJobStatement j set).2 now) r.record r.record
        (updateSets set.result.isSome set.errorCode.isSome set.errorMessage.isSome
          set.phash.isSome) =
      some ((set.apply now).run r).record := by
  obtain ⟨status, result, errorCode, errorMessage, phash⟩ := set
  cases result with
  | none =>
    cases errorCode <;> cases errorMessage <;> cases phash <;> rfl
  | some d =>
    have hload : (Sql.Value.text (U := Uuid) (dumps (.obj d))).cast loads "jsonb".toList =
        some (.json (.obj d)) := congrArg (Option.map Sql.Value.json) (loads_dumps (h d rfl))
    cases errorCode <;> cases errorMessage <;> cases phash <;>
    · refine (Sql.assign_cons (.text status.value) { r with status }.record rfl rfl).trans ?_
      refine (Sql.assign_cons (.time now) { r with status, updatedAt := now }.record rfl
        rfl).trans ?_
      refine (Sql.assign_cons (.json (.obj d))
        { r with status, updatedAt := now, result := some d }.record ?_ rfl).trans ?_
      · exact hload
      · rfl

theorem nullable_injective {α : Type} {f : α → SqlValue} (hf : ∀ a b, f a = f b → a = b)
    (hnull : ∀ a, f a ≠ .null) {x y : Option α} (h : nullable f x = nullable f y) : x = y := by
  cases x <;> cases y
  · rfl
  · exact absurd h.symm (hnull _)
  · exact absurd h (hnull _)
  · exact congrArg some (hf _ _ h)

theorem nullable_text {x y : Option Str} (h : nullable .text x = nullable .text y) : x = y :=
  nullable_injective (fun _ _ h => Sql.Value.text.inj h) (fun _ h => by cases h) h

/-- A row is what the table has of it. -/
theorem record_injective {a b : JobRow} (h : a.record = b.record) : a = b := by
  obtain ⟨jobId, status, phash, imageUrl, result, errorCode, errorMessage, createdAt, updatedAt⟩ := a
  obtain ⟨jobId', status', phash', imageUrl', result', errorCode', errorMessage', createdAt',
    updatedAt'⟩ := b
  simp only [JobRow.record, List.cons.injEq, Prod.mk.injEq, true_and, and_true, Sql.Value.uuid.injEq,
    Sql.Value.text.injEq, Sql.Value.time.injEq, Int.natCast_inj] at h
  obtain ⟨rfl, hstatus, hphash, rfl, hresult, hcode, hmessage, rfl, rfl⟩ := h
  obtain rfl := value_eq_iff.mp hstatus
  obtain rfl := nullable_text hphash
  obtain rfl := nullable_text hcode
  obtain rfl := nullable_text hmessage
  obtain rfl := nullable_injective (fun _ _ h => Json.obj.inj (Sql.Value.json.inj h))
    (fun _ h => by cases h) hresult
  rfl

theorem records_injective {xs ys : List JobRow} (h : xs.map JobRow.record = ys.map JobRow.record) :
    xs = ys :=
  List.map_injective_iff.mpr (fun _ _ => record_injective) h

theorem ofValue_value (s : JobStatus) : JobStatus.ofValue s.value = some s := by
  cases s <;> decide

theorem textOrNull_nullable (x : Option Str) : textOrNull (nullable .text x) = some x := by
  cases x <;> rfl

/-- **`_row_to_record` reads back what a row is**, if its result is made of texts. -/
theorem rowToRecord_record (h : ∀ d, r.result = some d → Plain (.obj d)) :
    rowToRecord r.record = some r := by
  have hresult : resultOrNull (nullable (fun d => .json (.obj d)) r.result) = some r.result := by
    cases hr : r.result with
    | none => rfl
    | some d =>
      show (match loads (dumps (.obj d)) with
        | some (.obj d) => some (some d)
        | _ => none) = _
      rw [loads_dumps (h d hr)]
  have hread : rowToRecord r.record =
      (JobStatus.ofValue r.status.value).bind fun status =>
        (textOrNull (nullable .text r.phash)).bind fun phash =>
          (resultOrNull (nullable (fun d => .json (.obj d)) r.result)).bind fun result =>
            (textOrNull (nullable .text r.errorCode)).bind fun errorCode =>
              (textOrNull (nullable .text r.errorMessage)).bind fun errorMessage =>
                some { r with status, phash, result, errorCode, errorMessage } := rfl
  rw [hread, ofValue_value, textOrNull_nullable, hresult, textOrNull_nullable, textOrNull_nullable]
  rfl

end Rows

/-! ## 5. What the statements do -/

section Statements

variable {w w' : World} {o : Op} {a : Ans o} {sql : Str} {params : List SqlValue}

theorem exec_of_parse {stmt : Sql.Statement} {ctx : Sql.Context Uuid Json} {rows : List SqlRecord}
    (h : Sql.parse sql = some stmt) :
    Sql.exec jobsSchema ctx rows sql = stmt.run jobsSchema ctx rows := by
  rw [Sql.exec, h]
  rfl

/-- The rows after a statement, and the table that has them. -/
theorem table_iff {jobs : JobsTable} {rows : List JobRow} {out : Sql.Answer Uuid Json} :
    (some (out, rows.map JobRow.record) : Option (Sql.Answer Uuid Json × List SqlRecord)) =
      some (out, jobs.rows.map JobRow.record) ↔ jobs.rows = rows := by
  constructor
  · intro h
    exact (records_injective (Prod.mk.inj (Option.some.inj h)).2).symm
  · exact fun h => by rw [h]

/-- The rows a reading statement gives, and the table it leaves. -/
theorem read_iff {rows found as : List JobRow} {jobs : JobsTable} :
    (some (.rows (found.map JobRow.record), rows.map JobRow.record) :
        Option (Sql.Answer Uuid Json × List SqlRecord)) =
      some (.rows (as.map JobRow.record), jobs.rows.map JobRow.record) ↔
      as = found ∧ jobs.rows = rows := by
  constructor
  · intro h
    obtain ⟨hfound, hrows⟩ := Prod.mk.inj (Option.some.inj h)
    exact ⟨(records_injective (Sql.Answer.rows.inj hfound)).symm, (records_injective hrows).symm⟩
  · rintro ⟨rfl, rfl⟩
    rfl

/-- `UPDATE jobs SET … WHERE job_id = $1`. -/
theorem exec_update {j : Uuid} {set : JobSet} (h : (Op.updateJob j set).Storable) (now : Nat)
    (rows : List JobRow) :
    Sql.exec jobsSchema (sqlContext (updateJobStatement j set).2 now) (rows.map JobRow.record)
        (updateJobStatement j set).1 =
      some (.rows [],
        (rows.map fun r => if r.jobId = j then (set.apply now).run r else r).map JobRow.record) := by
  have hhead : (updateJobStatement j set).2.head? = some (.uuid j) := by
    obtain ⟨status, result, errorCode, errorMessage, phash⟩ := set
    cases result <;> cases errorCode <;> cases errorMessage <;> cases phash <;> rfl
  rw [exec_of_parse ((congrArg Sql.parse (updateJobStatement_sql j set)).trans (parse_update _ _ _ _)),
    Sql.run_update (holds_byJobId hhead) fun r _ => assign_update h r]
  simp only [decide_eq_true_eq]

/-- **A text does what the model says of its call**: the effect of a call on the jobs table, its answer
    included, is what the text of its method does, with its parameters, to the rows of the table. -/
theorem statement_effect (ho : o.statement? = some (sql, params)) (hs : o.Storable) :
    Effect w o a w' ↔ w' = { w with jobs := w'.jobs } ∧
      Sql.exec jobsSchema (sqlContext params w.now) (w.jobs.rows.map JobRow.record) sql =
        some (o.outcome a, w'.jobs.rows.map JobRow.record) := by
  -- a call that writes: the table afterwards is the one with the rows
  have hwrite : ∀ {rows : List JobRow} {x : Option JobsTable},
      (∀ t, x = some t ↔ t.rows = rows) →
      ((∃ t, x = some t ∧ w' = { w with jobs := t }) ↔ w' = { w with jobs := w'.jobs } ∧
        (some (Sql.Answer.rows [], rows.map JobRow.record) :
          Option (Sql.Answer Uuid Json × List SqlRecord)) =
            some (.rows [], w'.jobs.rows.map JobRow.record)) := by
    intro rows x hx
    rw [table_iff]
    constructor
    · rintro ⟨t, ht, rfl⟩
      exact ⟨rfl, (hx t).mp ht⟩
    · exact fun ⟨hw, hrows⟩ => ⟨w'.jobs, (hx _).mpr hrows, hw⟩
  -- a call that reads: the world stays
  have hread : ∀ {P : Prop}, P ∧ w' = w ↔
      w' = { w with jobs := w'.jobs } ∧ P ∧ w'.jobs.rows = w.jobs.rows := by
    intro P
    constructor
    · rintro ⟨hP, rfl⟩
      exact ⟨rfl, hP, rfl⟩
    · intro ⟨hw, hP, hrows⟩
      refine ⟨hP, ?_⟩
      rw [hw, Relational.Table.ext_rows hrows]
  cases o with
  | insertJob j status url =>
    obtain ⟨rfl, rfl⟩ := Prod.mk.inj (Option.some.inj ho)
    rw [exec_of_parse parse_createJob]
    exact hwrite fun t => Relational.Table.insert_eq_some_iff
  | updateJob j set =>
    have hpair : updateJobStatement j set = (sql, params) := Option.some.inj ho
    have hexec := exec_update (j := j) hs w.now w.jobs.rows
    rw [hpair] at hexec
    rw [hexec]
    exact hwrite fun t => Relational.Table.modify_eq_some_iff
  | touchJob j =>
    obtain ⟨rfl, rfl⟩ := Prod.mk.inj (Option.some.inj ho)
    rw [exec_of_parse parse_touchJob, Sql.run_update (holds_byJobId rfl) fun r _ => assign_touch r]
    simp only [decide_eq_true_eq]
    exact hwrite fun t => Relational.Table.modify_eq_some_iff
  | selectJob j =>
    obtain ⟨rfl, rfl⟩ := Prod.mk.inj (Option.some.inj ho)
    have hfound : a.toList = (w.jobs.rows.filter fun r => decide (r.jobId = j)) ↔
        a = w.jobs.find j := by
      rw [Relational.Table.select_key w.jobs j]
      cases a <;> cases w.jobs.find j <;> simp
    rw [exec_of_parse parse_getJob, Sql.run_select (holds_byJobId rfl), show
      (Op.selectJob j).outcome a = .rows (a.toList.map JobRow.record) from rfl, read_iff, hfound]
    exact hread
  | selectStale p q =>
    obtain ⟨rfl, rfl⟩ := Prod.mk.inj (Option.some.inj ho)
    rw [exec_of_parse parse_staleJobs]
    refine Iff.trans ?_ (and_congr_right_iff.mpr fun _ =>
      (Eq.congr_left (Sql.run_select (S := jobsSchema) holds_stale w.jobs.rows)).symm)
    exact hread.trans (by rw [← read_iff]; rfl)
  | deleteOld p =>
    obtain ⟨rfl, rfl⟩ := Prod.mk.inj (Option.some.inj ho)
    rw [exec_of_parse parse_purgeJobs]
    refine Iff.trans ?_ (and_congr_right_iff.mpr fun _ =>
      (Eq.congr_left (Sql.run_deleteCount (S := jobsSchema) holds_old w.jobs.rows)).symm)
    constructor
    · rintro ⟨rfl, rfl⟩
      exact ⟨rfl, rfl⟩
    · intro ⟨hw, hexec⟩
      obtain ⟨hcount, hrows⟩ := Prod.mk.inj (Option.some.inj hexec)
      refine ⟨(Sql.Answer.count.inj hcount).symm, ?_⟩
      have hjobs : w.jobs.delete (JobRow.isOld w.now p) = w'.jobs :=
        Relational.Table.ext_rows (records_injective hrows)
      rw [hw, ← hjobs]
  | _ => cases ho

namespace Sample

/-- The row of a job that was submitted at time 0. -/
def pendingRow : JobRow where
  jobId := ⟨List.replicate 32 ⟨0, by decide⟩, rfl⟩
  status := .pending
  imageUrl := "https://img-campaign.gotit.vn/1.jpg".toList
  createdAt := 0
  updatedAt := 0

def onePending : JobsTable where
  rows := [pendingRow]
  unique := List.nodup_singleton _
  checked r hr := by
    rw [List.mem_singleton.mp hr]
    decide

/-- The same job failed for good. -/
def failedSet : JobSet where
  status := .failedPermanent
  errorCode := some "no_invoice_detected".toList
  errorMessage := some "no detection".toList

def oneFailed : JobsTable where
  rows := [(failedSet.apply 5).run pendingRow]
  unique := List.nodup_singleton _
  checked r hr := by
    rw [List.mem_singleton.mp hr]
    decide

theorem find_pending : onePending.find pendingRow.jobId = some pendingRow := by
  simp [Relational.Table.find, onePending]

theorem modify_failed : onePending.modify pendingRow.jobId (failedSet.apply 5) = some oneFailed :=
  Relational.Table.modify_eq_some_iff.mpr (by simp [Relational.Table.modified, onePending, oneFailed])

def oneRowWorld (jobs : JobsTable) : World := ⟨5, jobs, [], fun _ => none, fun _ => none⟩

end Sample

theorem statement_effect_failed :
    Effect (Sample.oneRowWorld Sample.onePending) (.updateJob Sample.pendingRow.jobId Sample.failedSet)
        () (Sample.oneRowWorld Sample.oneFailed) ↔
      Sample.oneRowWorld Sample.oneFailed = { Sample.oneRowWorld Sample.onePending with
        jobs := (Sample.oneRowWorld Sample.oneFailed).jobs } ∧
      Sql.exec jobsSchema (sqlContext (updateJobStatement Sample.pendingRow.jobId Sample.failedSet).2 5)
          [Sample.pendingRow.record]
          (updateJobStatement Sample.pendingRow.jobId Sample.failedSet).1 =
        some (.rows [], [((Sample.failedSet.apply 5).run Sample.pendingRow).record]) :=
  statement_effect rfl fun _ h => by cases h

/-- **What is written is read back.** After the text of `update_job_status` the text of
    `get_job_record` finds one row of the job, and `_row_to_record` makes of it the old record with the
    given columns, the status and the clock. -/
theorem update_then_get {jobs jobs' : JobsTable} {j : Uuid} {set : JobSet} {r : JobRow} {now : Nat}
    (now' : Nat) (hs : (Op.updateJob j set).Storable) (hr : ∀ d, r.result = some d → Plain (.obj d))
    (hrow : jobs.find j = some r) (hjobs : jobs.modify j (set.apply now) = some jobs') :
    ∃ row,
      Sql.exec jobsSchema (sqlContext (updateJobStatement j set).2 now) (jobs.rows.map JobRow.record)
          (updateJobStatement j set).1 = some (.rows [], jobs'.rows.map JobRow.record) ∧
      Sql.exec jobsSchema (sqlContext [.uuid j] now') (jobs'.rows.map JobRow.record) getJobSql =
          some (.rows [row], jobs'.rows.map JobRow.record) ∧
      rowToRecord row = some ((set.apply now).run r) := by
  have hfind : jobs'.find j = some ((set.apply now).run r) := by
    rw [Relational.Table.find_modify hjobs, if_pos rfl, hrow]
    rfl
  refine ⟨((set.apply now).run r).record, ?_, ?_, rowToRecord_record fun d hd => ?_⟩
  · rw [exec_update hs, Relational.Table.modify_eq_some_iff.mp hjobs]
    rfl
  · rw [exec_of_parse parse_getJob, Sql.run_select (holds_byJobId rfl)]
    have hkey : (jobs'.rows.filter fun r => decide (r.jobId = j)) = (jobs'.find j).toList :=
      Relational.Table.select_key jobs' j
    rw [hkey, hfind]
    rfl
  · have hresult : set.result.or r.result = some d := hd
    cases hset : set.result with
    | none =>
      rw [hset] at hresult
      exact hr d hresult
    | some d' =>
      rw [hset] at hresult
      cases hresult
      exact hs d hset

theorem update_then_get_failed : ∃ row,
    Sql.exec jobsSchema (sqlContext (updateJobStatement Sample.pendingRow.jobId Sample.failedSet).2 5)
        (Sample.onePending.rows.map JobRow.record)
        (updateJobStatement Sample.pendingRow.jobId Sample.failedSet).1 =
      some (.rows [], Sample.oneFailed.rows.map JobRow.record) ∧
    Sql.exec jobsSchema (sqlContext [.uuid Sample.pendingRow.jobId] 9)
        (Sample.oneFailed.rows.map JobRow.record) getJobSql =
      some (.rows [row], Sample.oneFailed.rows.map JobRow.record) ∧
    rowToRecord row = some ((Sample.failedSet.apply 5).run Sample.pendingRow) :=
  update_then_get 9 (fun _ h => by cases h) (fun _ h => by cases h) Sample.find_pending
    Sample.modify_failed

end Statements

end InvoiceOcr
