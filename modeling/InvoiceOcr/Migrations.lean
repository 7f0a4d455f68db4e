/-
  File:      InvoiceOcr/Migrations.lean
  Subject:   THE MIGRATIONS AND THE INIT CONTAINER (src/migrations/versions, src/migrations/env.py,
             src/src/init/entrypoint.py): which table the statements of the client find.

  * `initialJobs`, `cdnUrlMigration` -- the two scripts, statement by statement; `parse_…` -- each
    statement is what its text says;
  * `initialDefinition`, `jobsDefinition` -- the tables the scripts make; `jobsDefinition_schema`,
    `fits_record_iff` -- the second is the one Statements.lean and Calls.lean are about;
  * **`upgrade_keeps_rows`** -- from the first table `upgrade head` goes through exactly when every key
    fits in 512 characters, blanks at its end aside, and then keeps every row;
  * **`downgrade_then_upgrade`** -- a step back and `upgrade head` give the table back;
  * `initMain`, `Stack.Step` -- the container, and the services behind its gate;
  * **`gate_opens_at_head`** -- whatever fails and however often it runs, they find the table at its head,
    and later containers leave it as it is.
-/
import InvoiceOcr.Sql.Definition
import InvoiceOcr.Statements

namespace InvoiceOcr

open PyJson Async

/-! ## 1. The scripts -/

namespace Migrations

def jobsName : Str := "jobs".toList
def keyColumn : Str := "minio_key".toList
def failedKeyColumn : Str := "failed_minio_key".toList
def urlColumn : Str := "image_url".toList

def createJobsTableSql : Str :=
  ['\n'] ++ line 8 "CREATE TABLE IF NOT EXISTS jobs (" ++
    line 12 "job_id           UUID PRIMARY KEY," ++
    line 12 "status           TEXT NOT NULL," ++
    line 12 "phash            TEXT NULL," ++
    line 12 "minio_key        TEXT NOT NULL," ++
    line 12 "failed_minio_key TEXT NULL," ++
    line 12 "result           JSONB NULL," ++
    line 12 "error_code       TEXT NULL," ++
    line 12 "error_message    TEXT NULL," ++
    line 12 "created_at       TIMESTAMPTZ NOT NULL DEFAULT now()," ++
    line 12 "updated_at       TIMESTAMPTZ NOT NULL DEFAULT now()," ++
    line 12 "CONSTRAINT jobs_status_chk" ++
    line 16 "CHECK (status IN ('PENDING','PROCESSING','SUCCEEDED'," ++
    line 34 "'FAILED_PERMANENT','FAILED_TRANSIENT'))," ++
    line 12 "CONSTRAINT jobs_succeeded_has_result_chk" ++
    line 16 "CHECK (status <> 'SUCCEEDED' OR result IS NOT NULL)" ++
    line 8 ");" ++ List.replicate 8 ' '

def createStaleIndexSql : Str :=
  ['\n'] ++ line 8 "CREATE INDEX IF NOT EXISTS jobs_stale_idx" ++
    line 12 "ON jobs (status, updated_at)" ++
    line 12 "WHERE status IN ('PROCESSING','PENDING');" ++ List.replicate 8 ' '

def dropStaleIndexSql : Str := "DROP INDEX IF EXISTS jobs_stale_idx;".toList

def dropJobsTableSql : Str := "DROP TABLE IF EXISTS jobs;".toList

def renameKeySql : Str := "ALTER TABLE jobs RENAME COLUMN minio_key TO image_url;".toList

def boundUrlSql : Str := "ALTER TABLE jobs ALTER COLUMN image_url TYPE VARCHAR(512);".toList

def dropFailedKeySql : Str := "ALTER TABLE jobs DROP COLUMN IF EXISTS failed_minio_key;".toList

def addFailedKeySql : Str :=
  "ALTER TABLE jobs ADD COLUMN IF NOT EXISTS failed_minio_key TEXT NULL;".toList

def unboundUrlSql : Str := "ALTER TABLE jobs ALTER COLUMN image_url TYPE TEXT;".toList

def renameUrlSql : Str := "ALTER TABLE jobs RENAME COLUMN image_url TO minio_key;".toList

/-- `jobs_status_chk`, `jobs_succeeded_has_result_chk`. -/
def jobsChecks : List (Str × Sql.Check) :=
  [("jobs_status_chk".toList, .oneOf "status".toList ["PENDING".toList, "PROCESSING".toList,
      "SUCCEEDED".toList, "FAILED_PERMANENT".toList, "FAILED_TRANSIENT".toList]),
   ("jobs_succeeded_has_result_chk".toList,
      .or (.differs "status".toList "SUCCEEDED".toList) (.present "result".toList))]

/-- `jobs_stale_idx`. -/
def staleIndex : Sql.Index where
  name := "jobs_stale_idx".toList
  columns := ["status".toList, "updated_at".toList]
  cond := .oneOf "status".toList ["PROCESSING".toList, "PENDING".toList]

/-- A nullable column. -/
def nullableColumn (name : Str) (type : Sql.ColumnType) : Sql.Column := ⟨name, type, false, .null⟩

/-- A column `NOT NULL`. -/
def requiredColumn (name : Str) (type : Sql.ColumnType) : Sql.Column := ⟨name, type, true, .null⟩

/-- A column `NOT NULL DEFAULT now()`. -/
def timeColumn (name : Str) : Sql.Column := ⟨name, .timestamptz, true, .now⟩

/-- The table of 0001, before its index. -/
def createdDefinition : Sql.Definition where
  table := jobsName
  columns :=
    [requiredColumn "job_id".toList .uuid, requiredColumn "status".toList .text,
     nullableColumn "phash".toList .text,
     requiredColumn keyColumn .text, nullableColumn failedKeyColumn .text,
     nullableColumn "result".toList .jsonb, nullableColumn "error_code".toList .text,
     nullableColumn "error_message".toList .text, timeColumn "created_at".toList,
     timeColumn "updated_at".toList]
  primaryKey := "job_id".toList
  checks := jobsChecks
  indexes := []

/-- The table of 0001. -/
def initialDefinition : Sql.Definition := { createdDefinition with indexes := [staleIndex] }

/-- The table of 0002. -/
def jobsDefinition : Sql.Definition where
  table := jobsName
  columns :=
    [requiredColumn "job_id".toList .uuid, requiredColumn "status".toList .text,
     nullableColumn "phash".toList .text,
     requiredColumn urlColumn (.varchar 512), nullableColumn "result".toList .jsonb,
     nullableColumn "error_code".toList .text, nullableColumn "error_message".toList .text,
     timeColumn "created_at".toList, timeColumn "updated_at".toList]
  primaryKey := "job_id".toList
  checks := jobsChecks
  indexes := [staleIndex]

/-- 0001_initial_jobs.py. -/
def initialJobs : Sql.Script where
  revision := "0001_initial_jobs".toList
  downRevision := none
  upgrade :=
    [.createTable true createdDefinition, .createIndex true jobsName staleIndex]
  downgrade := [.dropIndex true "jobs_stale_idx".toList, .dropTable true jobsName]

/-- 0002_cdn_url_migration.py. -/
def cdnUrlMigration : Sql.Script where
  revision := "0002_cdn_url_migration".toList
  downRevision := some "0001_initial_jobs".toList
  upgrade :=
    [.alter jobsName (.renameColumn keyColumn urlColumn),
     .alter jobsName (.alterType urlColumn (.varchar 512)),
     .alter jobsName (.dropColumn true failedKeyColumn)]
  downgrade :=
    [.alter jobsName (.addColumn true failedKeyColumn .text),
     .alter jobsName (.alterType urlColumn .text),
     .alter jobsName (.renameColumn urlColumn keyColumn)]

/-- src/migrations/versions. -/
def versions : List Sql.Script := [initialJobs, cdnUrlMigration]

/-- The version at the head. -/
def head : Option Str := some cdnUrlMigration.revision

/-! ## 2. The texts, and the tables -/

theorem parse_initialJobs : [createJobsTableSql, createStaleIndexSql].map Sql.parseDdl =
      initialJobs.upgrade.map some ∧
    [dropStaleIndexSql, dropJobsTableSql].map Sql.parseDdl = initialJobs.downgrade.map some := by
  decide +kernel

theorem parse_cdnUrlMigration : [renameKeySql, boundUrlSql, dropFailedKeySql].map Sql.parseDdl =
      cdnUrlMigration.upgrade.map some ∧
    [addFailedKeySql, unboundUrlSql, renameUrlSql].map Sql.parseDdl =
      cdnUrlMigration.downgrade.map some := by
  decide +kernel

/-- The statements of the client are about the table at the head. -/
theorem jobsDefinition_schema : jobsDefinition.schema = jobsSchema := rfl

theorem admits_nullable {c : Str} {type : Sql.ColumnType} {α : Type} {f : α → SqlValue}
    (hf : ∀ a, (f a).ofType type = true) (x : Option α) :
    (nullableColumn c type).admits (nullable f x) = true := by
  cases x with
  | none => rfl
  | some a => exact Bool.and_eq_true_iff.mpr ⟨hf a, rfl⟩

theorem shaped_record_iff (r : JobRow) :
    Sql.shaped jobsDefinition.columns r.record = true ↔ r.imageUrl.length ≤ 512 := by
  simp only [jobsDefinition, JobRow.record, Sql.shaped_cons]
  constructor
  · rintro ⟨-, -, -, ⟨-, h⟩, -⟩
    exact of_decide_eq_true (Bool.and_eq_true_iff.mp h).1
  · intro h
    exact ⟨⟨rfl, rfl⟩, ⟨rfl, rfl⟩, ⟨rfl, admits_nullable (fun _ => rfl) _⟩,
      ⟨rfl, Bool.and_eq_true_iff.mpr ⟨decide_eq_true h, rfl⟩⟩,
      ⟨rfl, admits_nullable (fun _ => rfl) _⟩, ⟨rfl, admits_nullable (fun _ => rfl) _⟩,
      ⟨rfl, admits_nullable (fun _ => rfl) _⟩, ⟨rfl, rfl⟩, ⟨rfl, rfl⟩, rfl⟩

/-- **The checks of the table are those of the model.** -/
theorem fits_record_iff (r : JobRow) : jobsDefinition.fits r.record = true ↔ r.Check := by
  have hchecks : (jobsDefinition.checks.all fun c => c.2.truth r.record != some false) =
      (r.status != .succeeded || r.result.isSome) := by
    obtain ⟨j, status, phash, url, result, errorCode, errorMessage, created, updated⟩ := r
    cases status <;> cases result <;> rfl
  unfold Sql.Definition.fits
  rw [Bool.and_eq_true, shaped_record_iff, hchecks]
  unfold JobRow.Check
  cases r.status <;> simp [and_comm]

/-- A table of the model as the database has it. -/
def relationOf (jobs : JobsTable) : Sql.Relation Uuid Json where
  definition := jobsDefinition
  rows := jobs.rows.map JobRow.record
  fits r hr := by
    obtain ⟨row, hrow, rfl⟩ := List.mem_map.mp hr
    exact (fits_record_iff row).mpr (jobs.checked row hrow)
  distinct := by
    unfold Sql.Definition.Distinct
    rw [List.pairwise_map]
    refine (List.pairwise_map.mp jobs.unique).imp fun hne => ?_
    exact decide_eq_false hne

/-! ## 3. One step up -/

abbrev JobsRelation := Sql.Relation Uuid Json

abbrev JobsDatabase := Sql.Database Uuid Json

/-- The table of 0001 as a step back from 0002 makes it: `failed_minio_key` is its last column. -/
def revertedDefinition : Sql.Definition :=
  { initialDefinition with
    columns :=
      [requiredColumn "job_id".toList .uuid, requiredColumn "status".toList .text,
     nullableColumn "phash".toList .text,
       requiredColumn keyColumn .text, nullableColumn "result".toList .jsonb,
       nullableColumn "error_code".toList .text, nullableColumn "error_message".toList .text,
       timeColumn "created_at".toList, timeColumn "updated_at".toList, nullableColumn failedKeyColumn .text] }

/-- The statements of 0002 find what they name. -/
structure Upgradable (d : Sql.Definition) : Prop where
  table : d.table = jobsName
  distinct : d.names.Nodup ∧ (d.rename keyColumn urlColumn).names.Nodup
  key : requiredColumn keyColumn .text ∈ d.columns
  free : urlColumn ∉ d.names ∧ urlColumn ∉ d.used
  renamed : urlColumn ∈ (d.rename keyColumn urlColumn).names ∧
    urlColumn ∉ (d.rename keyColumn urlColumn).used
  failed : failedKeyColumn ∈
      ((d.rename keyColumn urlColumn).retype urlColumn (.varchar 512)).names ∧
    failedKeyColumn ≠ ((d.rename keyColumn urlColumn).retype urlColumn (.varchar 512)).primaryKey
  result : ((d.rename keyColumn urlColumn).retype urlColumn
    (.varchar 512)).drop failedKeyColumn = jobsDefinition

theorem upgradable_initial : Upgradable initialDefinition := by
  constructor <;> decide +kernel

theorem upgradable_reverted : Upgradable revertedDefinition := by
  constructor <;> decide +kernel

/-- The key fits in the new column: what is beyond 512 characters is blank. -/
def KeyFits (r : SqlRecord) : Prop :=
  ∀ key, r.get? keyColumn = some (.text key) → (key.drop 512).all (· = ' ') = true

/-- A row after the step. -/
def migrateRow (r : SqlRecord) : SqlRecord :=
  Sql.Record.drop ((Sql.Record.retype urlColumn (.varchar 512)
    (r.rename keyColumn urlColumn)).getD []) failedKeyColumn

section Up

variable {t : JobsRelation} {r r' : SqlRecord}

/-- The key of a row of the first table. -/
theorem exists_key {d : Sql.Definition} (h : Upgradable d) (hr : d.fits r = true) :
    ∃ key, r.get? keyColumn = some (.text key) := by
  obtain ⟨v, hv, hadm⟩ := Sql.admits_of_shaped h.distinct.1 (Sql.shaped_of_fits hr) h.key
  cases v with
  | text key => exact ⟨key, hv⟩
  | _ => cases hadm

/-- The key of a row is its URL once the column is renamed. -/
theorem get?_url {d : Sql.Definition} (h : Upgradable d) (hr : d.fits r = true) :
    (r.rename keyColumn urlColumn).get? urlColumn =
      r.get? keyColumn := by
  have hnames := Sql.names_of_shaped (Sql.shaped_of_fits hr)
  have hfree : urlColumn ∉ r.map Prod.fst := by
    rw [hnames]
    exact h.free.1
  have hne : keyColumn ≠ urlColumn := by decide
  exact Sql.get?_rename keyColumn hfree hne

/-- A renamed row is retyped exactly when its key fits. -/
theorem retype_url {d : Sql.Definition} (h : Upgradable d) (hr : d.fits r = true) :
    (Sql.Record.retype urlColumn (.varchar 512)
      (r.rename keyColumn urlColumn)).isSome = true ↔ KeyFits r := by
  obtain ⟨key, hkey⟩ := exists_key h hr
  have hurl := (get?_url h hr).trans hkey
  have hnodup : ((r.rename keyColumn urlColumn).map Prod.fst).Nodup := by
    rw [Sql.names_of_shaped (Sql.shaped_rename _ _ (Sql.shaped_of_fits hr))]
    exact h.distinct.2
  constructor
  · intro hsome key' hkey'
    cases hkey.symm.trans hkey'
    obtain ⟨r', hr'⟩ := Option.isSome_iff_exists.mp hsome
    obtain ⟨v, hv, _⟩ := Sql.get?_retype_self hr' hurl
    rw [Sql.assigned_varchar] at hv
    split at hv
    · assumption
    · cases hv
  · intro hfits
    refine Sql.retype_isSome fun e he hname => ?_
    have hv := Sql.get?_of_mem hnodup he
    rw [hname, hurl] at hv
    rw [← Option.some.inj hv, Sql.assigned_varchar, if_pos (hfits key hkey)]
    rfl

/-- What the step makes of a row whose key fits. -/
structure Migrated (r r' : SqlRecord) : Prop where
  url : ∃ key, r.get? keyColumn = some (.text key) ∧
    r'.get? urlColumn = some (.text (key.take 512))
  others : ∀ c ∈ jobsDefinition.names, c ≠ urlColumn → r'.get? c = r.get? c

theorem migrated_row {d : Sql.Definition} (h : Upgradable d) (hr : d.fits r = true)
    (hfits : KeyFits r) : Migrated r (migrateRow r) := by
  obtain ⟨key, hkey⟩ := exists_key h hr
  obtain ⟨s, hs⟩ := Option.isSome_iff_exists.mp ((retype_url h hr).mpr hfits)
  unfold migrateRow
  rw [hs, Option.getD_some]
  refine ⟨⟨key, hkey, ?_⟩, fun c hc hne => ?_⟩
  · obtain ⟨v, hv, hget⟩ := Sql.get?_retype_self hs ((get?_url h hr).trans hkey)
    rw [Sql.assigned_varchar, if_pos (hfits key hkey)] at hv
    cases hv
    rw [Sql.get?_drop (by decide), hget]
  · have hother : c ≠ failedKeyColumn ∧ c ≠ keyColumn :=
      (by decide +kernel : ∀ c ∈ jobsDefinition.names,
        c ≠ failedKeyColumn ∧ c ≠ keyColumn) c hc
    have hfree : urlColumn ∉ r.map Prod.fst := by
      rw [Sql.names_of_shaped (Sql.shaped_of_fits hr)]
      exact h.free.1
    have hrename := Sql.get?_rename keyColumn hfree hne
    rw [Sql.renamed, if_neg hother.2] at hrename
    rw [Sql.get?_drop hother.1, Sql.get?_retype hs hne, hrename]

/-- The three statements, where every key fits. -/
theorem upgrade_some (h : Upgradable t.definition) (hfits : ∀ r ∈ t.rows, KeyFits r) :
    ∃ t' : JobsRelation, Sql.runAll (some t) cdnUrlMigration.upgrade = some (some t') ∧
      t'.definition = jobsDefinition ∧ t'.rows = t.rows.map migrateRow := by
  have hkey : keyColumn ∈ t.definition.names := List.mem_map.mpr ⟨_, h.key, rfl⟩
  obtain ⟨t₁, h₁, hd₁, hr₁⟩ := Sql.rename_some keyColumn urlColumn hkey h.free.1 h.free.2
  have hurl : urlColumn ∈ t₁.definition.names := by
    rw [hd₁]
    exact h.renamed.1
  obtain ⟨t₂, h₂, hd₂, hr₂⟩ := Sql.retype_some urlColumn (.varchar 512)
    (g := fun r => (Sql.Record.retype urlColumn (.varchar 512) r).getD []) hurl
    (by rw [hd₁]; exact h.renamed.2) (by
      intro r₁ hm
      rw [hr₁] at hm
      obtain ⟨r, hr, rfl⟩ := List.mem_map.mp hm
      obtain ⟨s, hs⟩ := Option.isSome_iff_exists.mp
        ((retype_url h (t.fits r hr)).mpr (hfits r hr))
      rw [hs]
      rfl)
  have hfailed : failedKeyColumn ∈ t₂.definition.names := by
    rw [hd₂, hd₁]
    exact h.failed.1
  obtain ⟨t₃, h₃, hd₃, hr₃⟩ := Sql.drop_some true hfailed (by
    rw [hd₂, hd₁]
    exact h.failed.2)
  have htable₁ : t₁.definition.table = jobsName := by rw [hd₁]; exact h.table
  have htable₂ : t₂.definition.table = jobsName := by rw [hd₂]; exact htable₁
  refine ⟨t₃, ?_, ?_, ?_⟩
  · show Sql.runAll (some t) [.alter jobsName (.renameColumn keyColumn urlColumn),
      .alter jobsName (.alterType urlColumn (.varchar 512)),
      .alter jobsName (.dropColumn true failedKeyColumn)] = some (some t₃)
    rw [Sql.runAll_alter h.table h₁, Sql.runAll_alter htable₁ h₂, Sql.runAll_alter htable₂ h₃]
    rfl
  · rw [hd₃, hd₂, hd₁]
    exact h.result
  · rw [hr₃, hr₂, hr₁, List.map_map, List.map_map]
    rfl

/-- And where one does not, they stop. -/
theorem upgrade_none (h : Upgradable t.definition) (hr : r ∈ t.rows) (hfits : ¬ KeyFits r) :
    Sql.runAll (some t) cdnUrlMigration.upgrade = none := by
  have hkey : keyColumn ∈ t.definition.names := List.mem_map.mpr ⟨_, h.key, rfl⟩
  obtain ⟨t₁, h₁, hd₁, hr₁⟩ := Sql.rename_some keyColumn urlColumn hkey h.free.1 h.free.2
  have htable₁ : t₁.definition.table = jobsName := by rw [hd₁]; exact h.table
  have hmem : r.rename keyColumn urlColumn ∈ t₁.rows := hr₁ ▸ List.mem_map_of_mem hr
  have hnone : Sql.Record.retype urlColumn (.varchar 512) (r.rename keyColumn urlColumn) = none := by
    have hsome := mt (retype_url h (t.fits r hr)).mp hfits
    rwa [Option.isSome_iff_ne_none, not_not] at hsome
  show Sql.runAll (some t) [.alter jobsName (.renameColumn keyColumn urlColumn),
    .alter jobsName (.alterType urlColumn (.varchar 512)),
    .alter jobsName (.dropColumn true failedKeyColumn)] = none
  rw [Sql.runAll_alter h.table h₁, Sql.runAll_alter_none htable₁ (Sql.retype_none hmem hnone)]

/-- From 0001 the second script is what is left. -/
theorem upgradeHead_initial (t : Option JobsRelation) :
    Sql.upgradeHead versions ⟨some initialJobs.revision, t⟩ =
      (Sql.runAll t cdnUrlMigration.upgrade).map fun t => ⟨head, t⟩ := by
  have hpending : Sql.pending versions (some initialJobs.revision) = some [cdnUrlMigration] :=
    if_pos rfl
  unfold Sql.upgradeHead
  rw [hpending, Option.bind_some, Sql.upAll, Sql.Script.up]
  cases Sql.runAll t cdnUrlMigration.upgrade <;> rfl

/-- **`upgrade head` from the first table.** It goes through exactly when every key fits, and then every
    row is there with all its columns but `failed_minio_key`; else the transaction is rolled back. -/
theorem upgrade_keeps_rows (hd : t.definition = initialDefinition ∨ t.definition = revertedDefinition) :
    ((∀ r ∈ t.rows, KeyFits r) → ∃ t' : JobsRelation,
        Sql.upgradeHead versions ⟨some initialJobs.revision, some t⟩ = some ⟨head, some t'⟩ ∧
          t'.definition = jobsDefinition ∧ List.Forall₂ Migrated t.rows t'.rows) ∧
      ((∃ r ∈ t.rows, ¬ KeyFits r) →
        Sql.upgradeHead versions ⟨some initialJobs.revision, some t⟩ = none) := by
  have h : Upgradable t.definition := by
    rcases hd with hd | hd <;> rw [hd]
    · exact upgradable_initial
    · exact upgradable_reverted
  rw [upgradeHead_initial]
  refine ⟨fun hfits => ?_, fun ⟨r, hr, hfits⟩ => ?_⟩
  · obtain ⟨t', hrun, hd', hrows⟩ := upgrade_some h hfits
    refine ⟨t', by rw [hrun]; rfl, hd', ?_⟩
    rw [hrows, List.forall₂_map_right_iff, List.forall₂_same]
    exact fun r hr => migrated_row h (t.fits r hr) (hfits r hr)
  · rw [upgrade_none h hr hfits]
    rfl

namespace Sample

def storedRow : SqlRecord :=
  [("job_id".toList, .uuid Sample.pendingRow.jobId), ("status".toList, .text "PENDING".toList),
   ("phash".toList, .null), (keyColumn, .text "receipts/1.jpg".toList), (failedKeyColumn, .null),
   ("result".toList, .null), ("error_code".toList, .null), ("error_message".toList, .null),
   ("created_at".toList, .time 0), ("updated_at".toList, .time 0)]

/-- A table of 0001 with one row. -/
def stored : JobsRelation where
  definition := initialDefinition
  rows := [storedRow]
  fits r hr := by
    rw [List.mem_singleton.mp hr]
    decide +kernel
  distinct := List.pairwise_singleton _ _

end Sample

theorem upgrade_keeps_rows_stored :
    ((∀ r ∈ Sample.stored.rows, KeyFits r) → ∃ t' : JobsRelation,
        Sql.upgradeHead versions ⟨some initialJobs.revision, some Sample.stored⟩ =
            some ⟨head, some t'⟩ ∧
          t'.definition = jobsDefinition ∧ List.Forall₂ Migrated Sample.stored.rows t'.rows) ∧
      ((∃ r ∈ Sample.stored.rows, ¬ KeyFits r) →
        Sql.upgradeHead versions ⟨some initialJobs.revision, some Sample.stored⟩ = none) :=
  upgrade_keeps_rows (Or.inl rfl)

/-! ## 4. A step back -/

/-- A row after the step back. -/
def revertRow (r : SqlRecord) : SqlRecord :=
  Sql.Record.rename (r ++ [(failedKeyColumn, .null)]) urlColumn keyColumn

/-- The URL of a row is what the column of the table after the step back takes. -/
theorem exists_url (hr : jobsDefinition.fits r = true) :
    ∃ url : Str, url.length ≤ 512 ∧ r.get? urlColumn = some (.text url) := by
  obtain ⟨v, hv, hadm⟩ := Sql.admits_of_shaped (c := requiredColumn urlColumn (.varchar 512))
    (by decide +kernel) (Sql.shaped_of_fits hr) (by decide +kernel)
  cases v with
  | text url => exact ⟨url, of_decide_eq_true (Bool.and_eq_true_iff.mp hadm).1, hv⟩
  | _ => cases hadm

/-- The entry of the URL column. -/
theorem url_entry (hr : jobsDefinition.fits r = true) {e : Str × SqlValue} (he : e ∈ r)
    (hname : e.1 = urlColumn) : ∃ url : Str, url.length ≤ 512 ∧ e.2 = .text url := by
  obtain ⟨url, hlen, hurl⟩ := exists_url hr
  have hnodup : (r.map Prod.fst).Nodup := by
    rw [Sql.names_of_shaped (Sql.shaped_of_fits hr)]
    exact (by decide +kernel : jobsDefinition.names.Nodup)
  have hv := Sql.get?_of_mem hnodup he
  rw [hname, hurl] at hv
  exact ⟨url, hlen, (Option.some.inj hv).symm⟩

/-- The three statements of the step back. -/
theorem downgrade_some (hd : t.definition = jobsDefinition) :
    ∃ t' : JobsRelation, Sql.runAll (some t) cdnUrlMigration.downgrade = some (some t') ∧
      t'.definition = revertedDefinition ∧ t'.rows = t.rows.map revertRow := by
  obtain ⟨t₁, h₁, hd₁, hr₁⟩ := Sql.add_some (t := t) failedKeyColumn .text true
    (by rw [hd]; decide +kernel) (by rw [hd]; decide +kernel)
  rw [hd] at hd₁
  obtain ⟨t₂, h₂, hd₂, hr₂⟩ := Sql.retype_some (t := t₁) urlColumn .text
    (g := fun r => r) (by rw [hd₁]; decide +kernel) (by rw [hd₁]; decide +kernel) (by
      intro r₁ hm
      rw [hr₁] at hm
      obtain ⟨r, hr, rfl⟩ := List.mem_map.mp hm
      refine Sql.retype_self fun e he hname => ?_
      rcases List.mem_append.mp he with he | he
      · obtain ⟨url, _, hv⟩ := url_entry (hd ▸ t.fits r hr) he hname
        rw [hv]
        rfl
      · rw [List.mem_singleton.mp he]
        rfl)
  rw [hd₁] at hd₂
  obtain ⟨t₃, h₃, hd₃, hr₃⟩ := Sql.rename_some (t := t₂) urlColumn keyColumn
    (by rw [hd₂]; decide +kernel) (by rw [hd₂]; decide +kernel) (by rw [hd₂]; decide +kernel)
  rw [hd₂] at hd₃
  have htable : t.definition.table = jobsName := by rw [hd]; rfl
  have htable₁ : t₁.definition.table = jobsName := by rw [hd₁]; rfl
  have htable₂ : t₂.definition.table = jobsName := by rw [hd₂]; rfl
  refine ⟨t₃, ?_, hd₃.trans (by decide +kernel), ?_⟩
  · show Sql.runAll (some t) [.alter jobsName (.addColumn true failedKeyColumn .text),
      .alter jobsName (.alterType urlColumn .text),
      .alter jobsName (.renameColumn urlColumn keyColumn)] = some (some t₃)
    rw [Sql.runAll_alter htable h₁, Sql.runAll_alter htable₁ h₂, Sql.runAll_alter htable₂ h₃]
    rfl
  · rw [hr₃, hr₂, hr₁, List.map_id', List.map_map]
    rfl

/-- The step up undoes the step back on a row. -/
theorem migrate_revert (hr : jobsDefinition.fits r = true) :
    KeyFits (revertRow r) ∧ migrateRow (revertRow r) = r := by
  obtain ⟨url, hlen, hurl⟩ := exists_url hr
  have hnames := Sql.names_of_shaped (Sql.shaped_of_fits hr)
  have hfailed : failedKeyColumn ∉ r.map Prod.fst := by
    rw [hnames]
    exact (by decide +kernel : failedKeyColumn ∉ jobsDefinition.names)
  have hkey : keyColumn ∉ (r ++ [(failedKeyColumn, Sql.Value.null)]).map Prod.fst := by
    rw [List.map_append, hnames]
    exact (by decide +kernel : keyColumn ∉ jobsDefinition.names ++ [failedKeyColumn])
  constructor
  · intro key hget
    have hne : urlColumn ≠ keyColumn := by decide
    have hne' : urlColumn ≠ failedKeyColumn := by decide
    have hrename := Sql.get?_rename urlColumn hkey hne
    rw [Sql.renamed, if_pos rfl, Sql.get?_add hne', hurl] at hrename
    cases hrename.symm.trans hget
    rw [List.drop_eq_nil_of_le hlen]
    rfl
  · unfold migrateRow revertRow
    rw [Sql.rename_rename hkey, Sql.retype_self, Option.getD_some, Sql.drop_add hfailed]
    intro e he hname
    rcases List.mem_append.mp he with he | he
    · obtain ⟨url', hlen', hv⟩ := url_entry hr he hname
      rw [hv, Sql.assigned_varchar, List.drop_eq_nil_of_le hlen', List.take_of_length_le hlen']
      rfl
    · rw [List.mem_singleton.mp he]
      rfl

/-- **A step back and `upgrade head`** give back any table at the head. -/
theorem downgrade_then_upgrade (hd : t.definition = jobsDefinition) :
    ∃ t' : JobsRelation, Sql.downgradeOne versions ⟨head, some t⟩ =
        some ⟨some initialJobs.revision, some t'⟩ ∧
      Sql.upgradeHead versions ⟨some initialJobs.revision, some t'⟩ = some ⟨head, some t⟩ := by
  obtain ⟨t', hdown, hd', hrows⟩ := downgrade_some hd
  have hfits : ∀ r' ∈ t'.rows, KeyFits r' := by
    intro r' hr'
    rw [hrows] at hr'
    obtain ⟨r, hr, rfl⟩ := List.mem_map.mp hr'
    exact (migrate_revert (hd ▸ t.fits r hr)).1
  obtain ⟨t'', hup, hd'', hrows''⟩ := upgrade_some (hd' ▸ upgradable_reverted) hfits
  have hsame : t'' = t := by
    refine Sql.Relation.ext_rows (hd''.trans hd.symm) ?_
    rw [hrows'', hrows, List.map_map]
    conv_rhs => rw [← List.map_id t.rows]
    exact List.map_congr_left fun r hr => (migrate_revert (hd ▸ t.fits r hr)).2
  refine ⟨t', ?_, ?_⟩
  · have hfind : (versions.find? fun s => some s.revision = head) = some cdnUrlMigration := by
      rw [versions, List.find?_cons_of_neg (by decide), List.find?_cons_of_pos (by decide)]
    unfold Sql.downgradeOne
    rw [hfind, Option.bind_some, Sql.Script.down, hdown]
    rfl
  · rw [upgradeHead_initial, hup, hsame]
    rfl

theorem downgrade_then_upgrade_pending :
    ∃ t' : JobsRelation, Sql.downgradeOne versions ⟨head, some (relationOf Sample.onePending)⟩ =
        some ⟨some initialJobs.revision, some t'⟩ ∧
      Sql.upgradeHead versions ⟨some initialJobs.revision, some t'⟩ =
        some ⟨head, some (relationOf Sample.onePending)⟩ :=
  downgrade_then_upgrade rfl

end Up

/-! ## 5. The init container -/

/-- How the calls of the init container end. -/
structure InitOutcomes where
  /-- Alembic reaches Postgres, and its transaction is not lost. -/
  connects : Bool
  /-- The answer to the commit arrives. -/
  acknowledged : Bool
  /-- `init_pool`, `init`, `pg.ping`, `redis.ping`, `close_pool`, `close`: no error, and no `False`. -/
  probes : List Bool

/-- `main`: the exit code, and the database. -/
def initMain (o : InitOutcomes) (db : JobsDatabase) : Nat × JobsDatabase :=
  if o.connects then
    match Sql.upgradeHead versions db with
    | none => (1, db)
    | some db => (if o.acknowledged && o.probes.all id then 0 else 1, db)
  else (1, db)

/-- The database, and whether the services run: `service_completed_successfully`. -/
structure Stack where
  db : JobsDatabase
  services : Bool

/-- A step of the stack. A statement of the services changes the rows of a table, not what it is. -/
inductive Stack.Step : Stack → Stack → Prop where
  | init {k : Stack} (o : InitOutcomes) :
      Stack.Step k ⟨(initMain o k.db).2, k.services || (initMain o k.db).1 == 0⟩
  | write {k : Stack} {t t' : JobsRelation} (hs : k.services = true) (ht : k.db.table = some t)
      (hd : t'.definition = t.definition) : Stack.Step k ⟨{ k.db with table := some t' }, k.services⟩

/-- The stacks that steps lead to. -/
inductive Stack.Reaches (k₀ : Stack) : Stack → Prop where
  | start : Stack.Reaches k₀ k₀
  | step {k k' : Stack} (h : Stack.Reaches k₀ k) (hs : Stack.Step k k') : Stack.Reaches k₀ k'

/-- The database is at the head: its table is the one that the statements are about. -/
def AtHead (db : JobsDatabase) : Prop :=
  db.version = head ∧ ∃ t, db.table = some t ∧ t.definition = jobsDefinition

/-- A database that the scripts have made. -/
def Made (db : JobsDatabase) : Prop :=
  db = ⟨none, none⟩ ∨ AtHead db ∨ db.version = some initialJobs.revision ∧
    ∃ t, db.table = some t ∧ (t.definition = initialDefinition ∨ t.definition = revertedDefinition)

section Gate

variable {k k' k₀ : Stack} {db db' : JobsDatabase}

/-- At the head there is nothing to do. -/
theorem upgradeHead_head (h : AtHead db) : Sql.upgradeHead versions db = some db := by
  have hpending : Sql.pending versions head = some [] := by
    have hne : initialJobs.revision ≠ cdnUrlMigration.revision := by decide
    show (if initialJobs.revision = cdnUrlMigration.revision then some [cdnUrlMigration]
      else if cdnUrlMigration.revision = cdnUrlMigration.revision then some [] else _) = some []
    rw [if_neg hne, if_pos rfl]
  unfold Sql.upgradeHead
  rw [h.1, hpending]
  rfl

/-- The first script on an empty database. -/
theorem runAll_base : ∃ t : JobsRelation, Sql.runAll none initialJobs.upgrade = some (some t) ∧
    t.definition = initialDefinition := by
  let created : JobsRelation := ⟨createdDefinition, [], fun _ h => absurd h List.not_mem_nil, .nil⟩
  refine ⟨created.mapIndexes fun is => is ++ [staleIndex], ?_, rfl⟩
  show (Sql.Ddl.run (some created) (.createIndex true jobsName staleIndex)).bind
    (fun t => Sql.runAll t []) = _
  have htable : ¬ created.definition.table ≠ jobsName := not_not.mpr rfl
  have hnew : ¬ (created.definition.indexes.map Sql.Index.name).contains staleIndex.name = true :=
    Bool.false_ne_true
  have hcolumns : (staleIndex.columns ++ staleIndex.cond.columns).all
      created.definition.names.contains = true :=
    (by decide +kernel : (staleIndex.columns ++ staleIndex.cond.columns).all
      createdDefinition.names.contains = true)
  rw [Sql.Ddl.run, if_neg htable, if_neg hnew, if_pos hcolumns]
  rfl

theorem atHead_of_initial {t : JobsRelation}
    (hd : t.definition = initialDefinition ∨ t.definition = revertedDefinition)
    (hup : Sql.upgradeHead versions ⟨some initialJobs.revision, some t⟩ = some db') : AtHead db' := by
  have h : Upgradable t.definition := by
    rcases hd with hd | hd <;> rw [hd]
    · exact upgradable_initial
    · exact upgradable_reverted
  rw [upgradeHead_initial] at hup
  by_cases hfits : ∀ r ∈ t.rows, KeyFits r
  · obtain ⟨t', hrun, hd', _⟩ := upgrade_some h hfits
    rw [hrun] at hup
    cases hup
    exact ⟨rfl, t', rfl, hd'⟩
  · push Not at hfits
    obtain ⟨r, hr, hbad⟩ := hfits
    rw [upgrade_none h hr hbad] at hup
    cases hup

/-- **`upgrade head` leads to the head.** -/
theorem atHead_upgradeHead (h : Made db) (hup : Sql.upgradeHead versions db = some db') :
    AtHead db' := by
  rcases h with rfl | h | ⟨hv, t, ht, hd⟩
  · obtain ⟨t, hrun, hd⟩ := runAll_base
    have hfirst : Sql.upgradeHead versions (⟨none, none⟩ : JobsDatabase) =
        Sql.upgradeHead versions ⟨some initialJobs.revision, some t⟩ := by
      have hpending : Sql.pending versions (some initialJobs.revision) = some [cdnUrlMigration] :=
        if_pos rfl
      unfold Sql.upgradeHead
      rw [hpending]
      show ((Sql.runAll none initialJobs.upgrade).map _).bind (fun db => Sql.upAll db _) = _
      rw [hrun]
      rfl
    rw [hfirst] at hup
    exact atHead_of_initial (Or.inl hd) hup
  · rw [upgradeHead_head h] at hup
    cases hup
    exact h
  · obtain ⟨version, table⟩ := db
    cases hv
    cases ht
    exact atHead_of_initial hd hup

/-- What one run of the container does. -/
theorem initMain_cases (o : InitOutcomes) (db : JobsDatabase) :
    initMain o db = (1, db) ∨
      ∃ db', Sql.upgradeHead versions db = some db' ∧ (initMain o db).2 = db' := by
  unfold initMain
  split
  · split
    · exact Or.inl rfl
    · exact Or.inr ⟨_, by assumption, rfl⟩
  · exact Or.inl rfl

theorem initMain_head (o : InitOutcomes) (h : AtHead db) : (initMain o db).2 = db := by
  rcases initMain_cases o db with he | ⟨db', hup, he⟩
  · rw [he]
  · rw [upgradeHead_head h] at hup
    cases hup
    exact he

/-- **The gate opens at the head.** However often the container runs and whatever fails in it: while the
    services run the table is the one at the head, and a container leaves the database as it is; before
    that the database is what it was, or that after `upgrade head`. -/
theorem gate_opens_at_head (hmade : Made k₀.db) (hclosed : k₀.services = false)
    (h : Stack.Reaches k₀ k) :
    (k.services = true → AtHead k.db ∧ ∀ o, (initMain o k.db).2 = k.db) ∧
      (k.services = false → k.db = k₀.db ∨ Sql.upgradeHead versions k₀.db = some k.db) := by
  have hinv : (k.services = true → AtHead k.db) ∧
      (k.services = false → k.db = k₀.db ∨ Sql.upgradeHead versions k₀.db = some k.db) := by
    induction h with
    | start => exact ⟨fun hs => (by cases hclosed.symm.trans hs), fun _ => Or.inl rfl⟩
    | @step k k' h hs ih =>
      have hmadeNow : Made k.db := by
        cases hrun : k.services with
        | true => exact Or.inr (Or.inl (ih.1 hrun))
        | false =>
          rcases ih.2 hrun with he | hup
          · exact he ▸ hmade
          · exact Or.inr (Or.inl (atHead_upgradeHead hmade hup))
      cases hs with
      | write hrun ht hd =>
        obtain ⟨hv, t, ht', hd'⟩ := ih.1 hrun
        cases ht.symm.trans ht'
        exact ⟨fun _ => ⟨hv, _, rfl, hd.trans hd'⟩, fun hoff => (by cases hrun.symm.trans hoff)⟩
      | init o =>
        rcases initMain_cases o k.db with he | ⟨db', hup, he⟩
        · -- the container exits with 1
          rw [he]
          simpa using ih
        · have hhead := atHead_upgradeHead hmadeNow hup
          rw [he]
          refine ⟨fun _ => hhead, fun hoff => ?_⟩
          have hrun : k.services = false := (Bool.or_eq_false_iff.mp hoff).1
          rcases ih.2 hrun with hsame | hdone
          · exact Or.inr (hsame ▸ hup)
          · have hstay := upgradeHead_head (atHead_upgradeHead hmade hdone)
            cases hstay.symm.trans hup
            exact Or.inr hdone
  exact ⟨fun hs => ⟨hinv.1 hs, fun o => initMain_head o (hinv.1 hs)⟩, hinv.2⟩

namespace Sample

def noDatabase : Stack := ⟨⟨none, none⟩, false⟩

/-- Postgres is not up yet. -/
def notReached : InitOutcomes := ⟨false, false, []⟩

/-- The tables are made, the answer to the commit is lost. -/
def notAcknowledged : InitOutcomes := ⟨true, false, []⟩

/-- Nothing fails. -/
def allWell : InitOutcomes := ⟨true, true, List.replicate 6 true⟩

/-- The stack after one more container. -/
def after (k : Stack) (o : InitOutcomes) : Stack :=
  ⟨(initMain o k.db).2, k.services || (initMain o k.db).1 == 0⟩

/-- The stack after three containers, of which the last one opened the gate. -/
def installed : Stack :=
  after (after (after noDatabase notReached) notAcknowledged) allWell

/-- A first row. -/
def written : Stack :=
  ⟨{ installed.db with table := some (relationOf Sample.onePending) }, installed.services⟩

theorem installed_reached : Stack.Reaches noDatabase installed :=
  .step (.step (.step .start (.init notReached)) (.init notAcknowledged)) (.init allWell)

theorem installed_services : installed.services = true := rfl

end Sample

theorem gate_opens_at_head_written :
    (Sample.written.services = true →
        AtHead Sample.written.db ∧ ∀ o, (initMain o Sample.written.db).2 = Sample.written.db) ∧
      (Sample.written.services = false → Sample.written.db = Sample.noDatabase.db ∨
        Sql.upgradeHead versions Sample.noDatabase.db = some Sample.written.db) := by
  obtain ⟨⟨_, t, ht, hd⟩, _⟩ :=
    (gate_opens_at_head (Or.inl rfl) rfl Sample.installed_reached).1 Sample.installed_services
  exact gate_opens_at_head (Or.inl rfl) rfl
    (.step Sample.installed_reached (.write Sample.installed_services ht hd.symm))

end Gate

end Migrations
end InvoiceOcr
