/-
  File:      InvoiceOcr/Experiment.lean
  Subject:   THE EXPERIMENT BUDGET AND THE LOCK OF THE TEST SET (scripts/run_experiment.py).

  * `cmdRun`, `cmdFinal` -- the two commands, call by call; what they print is left out, and so is
    `cmd_status`, which writes nothing;
  * `runCase_of_exec`, `finalCase_of_exec` -- all that one of them can do to its guard files;
  * `Ledger` -- the evaluations so far against the guard files;
  * **`budget_kept`** -- the budget and the lock hold in every sequence of commands in which each
    evaluation that completes is followed by the opening of its guard file;
  * **`guards_lost`** -- a copy that fails after the evaluation leaves no guard: the dev set is
    evaluated a fourth time, the test set a second time.
-/
import InvoiceOcr.Async.Session
import InvoiceOcr.Files.Disk
import InvoiceOcr.Schemas
import InvoiceOcr.Text.Chars

namespace InvoiceOcr

open PyJson PyText Async Files

namespace Experiment

/-! ## 1. The script -/

def experimentsDir : Path := ["experiments".toList]
def runCountFile : Path := experimentsDir ++ ["run_count.txt".toList]
def comparisonFile : Path := experimentsDir ++ ["comparison.md".toList]
def runsDir : Path := experimentsDir ++ ["runs".toList]
def finalFile : Path := experimentsDir ++ ["final_result.json".toList]
def lockedSentinel : Path := experimentsDir ++ ["locked".toList]

def devInput : Str := "data/eval/dev_set.json".toList
def testInput : Str := "data/eval/test_set.json".toList
def evalScript : Str := "scripts/run_eval.py".toList
def maxRuns : Int := 3

/-- `Path(s)`. -/
def pathOf (s : Str) : Path := s.splitOn '/'

abbrev Script := Proc Call Reply PyExc

def call (o : Call) : Script (Reply o) := Proc.await o

def ofExcept {α : Type} (x : Except PyExc α) : Script α := Proc.ofExcept x

/-- `path.write_text(text)`: the file is emptied, then written. -/
def writeText (p : Path) (text : Str) : Script Unit := do
  call (.openWrite p)
  call (.write p text)

/-- The sign of a number, and its digits. -/
def signOf : Str → Int × Str
  | '-' :: s => (-1, s)
  | '+' :: s => (1, s)
  | s => (1, s)

/-- `int(s)`: decimals, single underscores between them, whitespace around. -/
def parseInt (s : Str) : Option Int :=
  let (sign, digits) := signOf (strip s)
  let groups := digits.splitOn '_'
  if groups.all fun g => !g.isEmpty && g.all isDecimal then
    some (sign * (groups.flatten.foldl (fun n c => 10 * n + (decimal? c).getD 0) 0 : Nat))
  else none

/-- `_read_run_count`. -/
def readRunCount : Script Int := do
  call (.mkdir experimentsDir)
  let counted ← call (.stat runCountFile)
  if counted then
    let text ← call (.readText runCountFile)
    match parseInt text with
    | some n => return n
    | none => .raise (.valueError ("invalid literal for int() with base 10: ".toList ++ strip text))
  else return 0

/-- `_write_run_count`. -/
def writeRunCount (n : Int) : Script Unit := writeText runCountFile (intStr n)

/-- `_is_locked`. -/
def isLocked : Script Bool := call (.stat lockedSentinel)

structure Metrics where
  psv : Json
  split : Json
  nTotal : Json
  nSuccess : Json
  overallAvg : Json
  namePct : Json
  totalMoney : Json
  productName : Json
  datePct : Json
  receiptPct : Json
  timestamp : Json

/-- `v.get(k, default)`. -/
def getItem (v : Json) (k : String) (default : Json) : Except PyExc Json :=
  match v with
  | .obj d => .ok ((Dict.get? d k.toList).getD default)
  | _ => .error (.attributeError "object has no attribute 'get'".toList)

/-- The number `0.0`. -/
def zero : Json := .num "0.0".toList

/-- The metrics in a report. -/
def metricsOf (data : Json) : Except PyExc Metrics := do
  let fa ← getItem data "field_accuracy" (.obj [])
  let pct (k : String) : Except PyExc Json := do getItem (← getItem fa k (.obj [])) "pct" zero
  return {
    psv := ← getItem data "psv" (.str ['?'])
    split := ← getItem data "split" (.str ['?'])
    nTotal := ← getItem data "n_total" (.num ['0'])
    nSuccess := ← getItem data "n_success" (.num ['0'])
    overallAvg := ← getItem data "overall_avg_pct" zero
    namePct := ← pct "name"
    totalMoney := ← pct "total_money"
    productName := ← pct "product_name"
    datePct := ← pct "date"
    receiptPct := ← pct "receipt_number"
    timestamp := ← getItem data "timestamp" (.str []) }

/-- `_parse_report`. -/
def parseReport (reportPath : Path) : Script Metrics := do
  let text ← call (.readText reportPath)
  match loads text with
  | none => .raise (.valueError "JSONDecodeError".toList)
  | some data => ofExcept (metricsOf data)

/-- How Python formats a JSON value: `str(v)`, `format(v, ".1f")` and `v[:16]`. -/
structure Format where
  str : Json → Str
  fixed : Json → Except PyExc Str
  head : Json → Except PyExc Str

def comparisonHeader : Str :=
  ("# Prompt Experiment Comparison\n\n" ++
    "| Run | PSV | Split | N | name% | total_money% | product_name% | date% | receipt_num% " ++
    "| overall_avg% | Notes | Timestamp |\n" ++
    "|-----|-----|-------|---|-------|--------------|---------------|-------|--------------" ++
    "|--------------|-------|-----------|\n").toList

/-- The row of a run. -/
def comparisonRow (fmt : Format) (runNo : Str) (m : Metrics) (notes : Str) : Except PyExc Str := do
  let cells := [runNo, fmt.str m.psv, fmt.str m.split,
    fmt.str m.nSuccess ++ '/' :: fmt.str m.nTotal, ← fmt.fixed m.namePct, ← fmt.fixed m.totalMoney,
    ← fmt.fixed m.productName, ← fmt.fixed m.datePct, ← fmt.fixed m.receiptPct,
    "**".toList ++ (← fmt.fixed m.overallAvg) ++ "**".toList, notes, ← fmt.head m.timestamp]
  return (cells.flatMap fun cell => "| ".toList ++ cell ++ [' ']) ++ "|\n".toList

/-- `_append_comparison_row`. -/
def appendComparisonRow (fmt : Format) (runNo : Str) (m : Metrics) (notes : Str) : Script Unit := do
  let row ← ofExcept (comparisonRow fmt runNo m notes)
  let present ← call (.stat comparisonFile)
  (if present then pure () else writeText comparisonFile comparisonHeader : Script Unit)
  call (.openAppend comparisonFile)
  call (.write comparisonFile row)

/-- The arguments of the two commands. -/
structure Args where
  psv : Str
  notes : Str := []
  workers : Int := 4
  yes : Bool := false
  evalArgs : List Str := []

/-- `cmd`, for the interpreter `executable`. -/
def evalCmd (executable inputPath split : Str) (args : Args) : List Str :=
  [executable, evalScript, "--input".toList, inputPath, "--psv".toList, args.psv, "--split".toList,
    split, "--workers".toList, intStr args.workers, "--out".toList, "eval_reports".toList] ++
      args.evalArgs

/-- `_run_eval`. -/
def runEval (executable inputPath split : Str) (args : Args) : Script Path := do
  let outDir : Path := ["eval_reports".toList]
  call (.mkdir outDir)
  call (.subprocess (evalCmd executable inputPath split args))
  -- the reports, the latest first
  let candidates ← call (.glob outDir
    ("eval_report_".toList ++ args.psv ++ '_' :: split ++ "_*.json".toList))
  match candidates with
  | report :: _ => return report
  | [] => .raise (.osError "No eval report found".toList)

/-- `cmd_run`, from the report on. -/
def recordRun (fmt : Format) (args : Args) (runNo : Int) (reportPath : Path) : Script Unit := do
  call (.mkdir runsDir)
  let dest := runsDir ++ ["run_".toList ++ intStr runNo ++ '_' :: args.psv ++ ".json".toList]
  call (.copy reportPath dest)
  let metrics ← parseReport dest
  appendComparisonRow fmt (intStr runNo) metrics args.notes

/-- `cmd_run`. -/
def cmdRun (fmt : Format) (executable : Str) (args : Args) : Script Int := do
  let locked ← isLocked
  if locked then return 1
  else
    let runCount ← readRunCount
    if runCount ≥ maxRuns then return 1
    else
      let runNo := runCount + 1
      let found ← call (.stat (pathOf devInput))
      if found then
        let reportPath ← runEval executable devInput "dev".toList args
        recordRun fmt args runNo reportPath
        writeRunCount runNo
        return 0
      else return 1

/-- `cmd_final`, from the report on; the time is the one on the lock. -/
def recordFinal (fmt : Format) (args : Args) (reportPath : Path) : Script Str := do
  call (.copy reportPath finalFile)
  let metrics ← parseReport finalFile
  appendComparisonRow fmt "FINAL".toList metrics
    (if args.notes = [] then "TEST SET".toList else args.notes)
  call .now

/-- The text of the sentinel. -/
def lockText (time psv : Str) : Str :=
  "Locked at ".toList ++ time ++ " by final eval psv=".toList ++ psv ++ ['\n']

/-- `args.yes`, or the answer at the console. -/
def confirmed (lower : Str → Str) (args : Args) : Script Bool := do
  if args.yes then return true
  else
    let answer ← call .input
    return lower (strip answer) = ['y']

/-- `cmd_final`. -/
def cmdFinal (lower : Str → Str) (fmt : Format) (executable : Str) (args : Args) : Script Int := do
  let locked ← isLocked
  if locked then return 1
  else
    let going ← confirmed lower args
    if going then
      let found ← call (.stat (pathOf testInput))
      if found then
        let reportPath ← runEval executable testInput "test".toList args
        let time ← recordFinal fmt args reportPath
        writeText lockedSentinel (lockText time args.psv)
        return 0
      else return 1
    else return 0

/-! ## 2. Commands one after another -/

inductive Invocation where
  | run (args : Args)
  | final (args : Args)

def Invocation.args : Invocation → Args
  | .run args => args
  | .final args => args

/-- The file that is to keep the command from going over its budget. -/
def Invocation.guard : Invocation → Path
  | .run _ => runCountFile
  | .final _ => lockedSentinel

def IsGuard (p : Path) : Prop := p = runCountFile ∨ p = lockedSentinel

/-- An evaluation, given no arguments of the caller, writes below `eval_reports` only. -/
abbrev Runs : Disk → (o : Call) → Except PyExc (Reply o) → Disk → Prop := Performs IsGuard

/-- Between two commands anything can change, but nobody deletes a guard file or rewrites the count. -/
def Meanwhile (d d' : Disk) : Prop :=
  d'.files runCountFile = d.files runCountFile ∧
    (d'.files lockedSentinel = none → d.files lockedSentinel = none)

section Sessions

variable (lower : Str → Str) (fmt : Format) (executable : Str)

def command : Invocation → Script Int
  | .run args => cmdRun fmt executable args
  | .final args => cmdFinal lower fmt executable args

abbrev Step := Entry Call Reply PyExc Int Invocation Disk

/-- Any sequence of the two commands, each failing wherever it may. -/
abbrev Commands := Session Runs Meanwhile (command lower fmt executable)

end Sessions

/-- The options of a command line, name by name. -/
def optionsOf : List Str → List (Str × Str)
  | name :: value :: cmd => (name, value) :: optionsOf cmd
  | _ => []

/-- The set a command line evaluates: the last `--input` counts. -/
def inputOf (cmd : List Str) : Option Str :=
  (((optionsOf (cmd.drop 2)).filter fun o => o.1 = "--input".toList).getLast?).map (·.2)

/-- The set whose evaluation has completed. -/
def completed : Event Call Reply PyExc → Option Str
  | ⟨.subprocess cmd, .ok _⟩ => inputOf cmd
  | _ => none

/-- The evaluations that completed in a run. -/
def evaluated (es : List (Event Call Reply PyExc)) : List Str := es.filterMap completed

/-- The evaluations that completed in a sequence of commands, the latest first. -/
def evaluations : List Step → List Str
  | [] => []
  | ⟨_, .ran _ es _, _⟩ :: tr => (evaluated es).reverse ++ evaluations tr
  | ⟨_, .idled, _⟩ :: tr => evaluations tr

/-- **The budget and the lock**, for evaluations the latest first. -/
structure WithinBudget (sets : List Str) : Prop where
  dev : (sets.count devInput : Int) ≤ maxRuns
  test : sets.count testInput ≤ 1
  order : sets.Pairwise fun later earlier => ¬ (later = devInput ∧ earlier = testInput)

/-- A file was opened for writing. -/
def Opened (p : Path) (es : List (Event Call Reply PyExc)) : Prop :=
  (⟨.openWrite p, .ok ()⟩ : Event Call Reply PyExc) ∈ es

/-- The command was given no arguments for the evaluation. -/
def DefaultArgs (e : Step) : Prop := ∀ i es x, e.turn = .ran i es x → i.args.evalArgs = []

/-- If the evaluation completed, nothing failed before the guard file was opened. -/
def Guarded (e : Step) : Prop :=
  ∀ i es x, e.turn = .ran i es x → evaluated es ≠ [] → Opened i.guard es

/-- No command has run here. -/
def Fresh (d : Disk) : Prop := ∀ p, IsGuard p → d.files p = none

/-! ## 3. What is no matter -/

/-- A call that neither evaluates nor writes a guard file. -/
def Bystander (o : Call) : Prop := o.isOwn = true ∧ ∀ p, IsGuard p → ¬ o.touches p

section Bystanders

variable {d d' : Disk} {p q : Path} {es : List (Event Call Reply PyExc)}

theorem not_isGuard_comparison : ¬ IsGuard comparisonFile := by
  unfold IsGuard
  decide

theorem not_isGuard_final : ¬ IsGuard finalFile := by
  unfold IsGuard
  decide

theorem not_isGuard_run (name : Str) : ¬ IsGuard (runsDir ++ [name]) := by
  intro h
  rcases h with h | h <;> cases congrArg List.length h

theorem bystander_of_ne {o : Call} (hown : o.isOwn = true) (hq : ¬ IsGuard q)
    (htouches : ∀ p, o.touches p → p = q) : Bystander o :=
  ⟨hown, fun p hp ht => hq (htouches p ht ▸ hp)⟩

theorem bystander_reads {o : Call} (hown : o.isOwn = true) (htouches : ∀ p, ¬ o.touches p) :
    Bystander o :=
  ⟨hown, fun p _ => htouches p⟩

theorem onlyCalls_call {P : Call → Prop} {o : Call} (h : P o) : (call o).OnlyCalls P :=
  onlyCalls_await h

theorem bystander_writeText (hp : ¬ IsGuard p) (text : Str) :
    (writeText p text).OnlyCalls Bystander :=
  onlyCalls_bind (onlyCalls_call (bystander_of_ne rfl hp fun _ h => h)) fun _ =>
    onlyCalls_call (bystander_of_ne rfl hp fun _ h => h)

theorem bystander_isLocked : isLocked.OnlyCalls Bystander :=
  onlyCalls_call (bystander_reads rfl fun _ h => h)

theorem bystander_readRunCount : readRunCount.OnlyCalls Bystander := by
  refine onlyCalls_bind (onlyCalls_call (bystander_reads rfl fun _ h => h)) fun _ => ?_
  refine onlyCalls_bind (onlyCalls_call (bystander_reads rfl fun _ h => h)) fun counted => ?_
  split
  · refine onlyCalls_bind (onlyCalls_call (bystander_reads rfl fun _ h => h)) fun text => ?_
    split <;> exact trivial
  · exact trivial

theorem bystander_parseReport (report : Path) : (parseReport report).OnlyCalls Bystander := by
  refine onlyCalls_bind (onlyCalls_call (bystander_reads rfl fun _ h => h)) fun text => ?_
  split
  · exact trivial
  · exact onlyCalls_ofExcept _

theorem bystander_appendComparisonRow (fmt : Format) (runNo : Str) (m : Metrics) (notes : Str) :
    (appendComparisonRow fmt runNo m notes).OnlyCalls Bystander := by
  refine onlyCalls_bind (onlyCalls_ofExcept _) fun row => ?_
  refine onlyCalls_bind (onlyCalls_call (bystander_reads rfl fun _ h => h)) fun present => ?_
  refine onlyCalls_bind ?_ fun _ => onlyCalls_bind ?_ fun _ => ?_
  · split
    · exact trivial
    · exact bystander_writeText not_isGuard_comparison _
  · exact onlyCalls_call (bystander_of_ne rfl not_isGuard_comparison fun _ h => h)
  · exact onlyCalls_call (bystander_of_ne rfl not_isGuard_comparison fun _ h => h)

theorem bystander_recordRun (fmt : Format) (args : Args) (runNo : Int) (report : Path) :
    (recordRun fmt args runNo report).OnlyCalls Bystander := by
  refine onlyCalls_bind (onlyCalls_call (bystander_reads rfl fun _ h => h)) fun _ => ?_
  refine onlyCalls_bind (onlyCalls_call (bystander_of_ne rfl (not_isGuard_run _) fun _ h => h)) fun _ => ?_
  exact onlyCalls_bind (bystander_parseReport _) fun m => bystander_appendComparisonRow _ _ m _

theorem bystander_recordFinal (fmt : Format) (args : Args) (report : Path) :
    (recordFinal fmt args report).OnlyCalls Bystander := by
  refine onlyCalls_bind (onlyCalls_call (bystander_of_ne rfl not_isGuard_final fun _ h => h)) fun _ => ?_
  refine onlyCalls_bind (bystander_parseReport _) fun m => ?_
  refine onlyCalls_bind (bystander_appendComparisonRow _ _ m _) fun _ => ?_
  exact onlyCalls_call (bystander_reads rfl fun _ h => h)

theorem bystander_confirmed (lower : Str → Str) (args : Args) :
    (confirmed lower args).OnlyCalls Bystander := by
  unfold confirmed
  split
  · exact trivial
  · exact onlyCalls_bind (onlyCalls_call (bystander_reads rfl fun _ h => h)) fun _ => trivial

end Bystanders

/-! ## 4. What a command can do -/

section Cases

variable {d d' d'' : Disk} {es es' : List (Event Call Reply PyExc)} {α : Type}

/-- A stretch of a run that completes no evaluation and leaves the guard files alone. -/
structure Quiet (d : Disk) (es : List (Event Call Reply PyExc)) (d' : Disk) : Prop where
  idle : evaluated es = []
  closed : ∀ p, IsGuard p → ¬ Opened p es
  spared : Spared IsGuard d d'

theorem evaluated_append : evaluated (es ++ es') = evaluated es ++ evaluated es' :=
  List.filterMap_append

theorem opened_append {p : Path} : Opened p (es ++ es') ↔ Opened p es ∨ Opened p es' :=
  List.mem_append

theorem Quiet.append (h : Quiet d es d') (h' : Quiet d' es' d'') : Quiet d (es ++ es') d'' where
  idle := by rw [evaluated_append, h.idle, h'.idle, List.append_nil]
  closed p hp hopen := (opened_append.mp hopen).elim (h.closed p hp) (h'.closed p hp)
  spared p hp := (h'.spared p hp).trans (h.spared p hp)

theorem quiet_refl (d : Disk) : Quiet d [] d :=
  ⟨rfl, fun _ _ h => List.not_mem_nil h, fun _ _ => rfl⟩

theorem completed_own {ev : Event Call Reply PyExc} (h : ev.op.isOwn = true) : completed ev = none := by
  obtain ⟨op, reply⟩ := ev
  cases op with
  | subprocess cmd => cases h
  | _ => rfl

/-- **Bystanders are quiet.** -/
theorem quiet_of_exec {body : Script α} {x : Except PyExc α} (hbody : body.OnlyCalls Bystander)
    (h : Exec Runs body d es x d') : Quiet d es d' where
  idle := List.filterMap_eq_nil_iff.mpr fun ev hev => completed_own (calls_of_exec h hbody ev hev).1
  closed p hp hopen := (calls_of_exec h hbody _ hopen).2 p hp rfl
  spared p hp := files_of_exec h hp fun ev hev => (calls_of_exec h hbody ev hev).2 p hp

theorem quiet_call {o : Call} (ho : Bystander o) {x : Except PyExc (Reply o)}
    (h : Exec Runs (call o) d es x d') : Quiet d es d' := quiet_of_exec (onlyCalls_call ho) h

theorem completed_failed (o : Call) (e : PyExc) : completed ⟨o, .error e⟩ = none := by
  cases o <;> rfl

/-- A call that fails is quiet. -/
theorem quiet_failed {o : Call} {e : PyExc} (h : Runs d o (.error e) d')
    (htouches : ∀ p, IsGuard p → ¬ o.touches p) : Quiet d [⟨o, .error e⟩] d' where
  idle := List.filterMap_cons_none (completed_failed o e)
  closed p _ hopen := by cases List.mem_singleton.mp hopen
  spared p hp := files_of_answer h hp (htouches p hp)

/-- The count that is read from a disk. -/
def ReadsAs (d : Disk) (n : Int) : Prop :=
  (d.files runCountFile = none ∧ n = 0) ∨
    ∃ text, d.files runCountFile = some text ∧ parseInt text = some n

theorem files_of_not_has {p : Path} (h : d.has p = false) : d.files p = none := by
  unfold Disk.has at h
  simp only [Bool.or_eq_false_iff, Option.isSome_eq_false_iff, Option.isNone_iff_eq_none] at h
  exact h.1

theorem stat_ok {p : Path} {b : Bool} (h : Exec Runs (call (.stat p)) d es (.ok b) d') :
    b = d.has p ∧ d' = d := by
  obtain ⟨hanswer, -⟩ := (exec_await _ _).mp h
  cases hanswer
  exact ⟨rfl, rfl⟩

theorem readRunCount_ok {n : Int} (h : Exec Runs readRunCount d es (.ok n) d') : ReadsAs d n := by
  rcases (exec_bind _ _ _).mp h with ⟨_, d₁, _, _, -, hdir, hcount⟩ | ⟨_, _, hx⟩
  · have hfiles : d₁.files = d.files := by
      obtain ⟨hanswer, -⟩ := (exec_await _ _).mp hdir
      cases hanswer
      rfl
    rcases (exec_bind _ _ _).mp hcount with ⟨_, d₂, _, counted, -, hstat, hread⟩ | ⟨_, _, hx⟩
    · obtain ⟨hcounted, rfl⟩ := stat_ok hstat
      cases counted with
      | false =>
        obtain ⟨-, hn, -⟩ := (exec_ret _ _).mp hread
        cases hn
        exact Or.inl ⟨hfiles ▸ files_of_not_has hcounted.symm, rfl⟩
      | true =>
        rcases (exec_bind _ _ _).mp hread with ⟨_, d₃, _, text, -, htext, hparse⟩ | ⟨_, _, hx⟩
        · obtain ⟨hanswer, -⟩ := (exec_await _ _).mp htext
          cases hanswer with
          | readText hfile =>
            refine Or.inr ⟨text, hfiles ▸ hfile, ?_⟩
            cases hint : parseInt text with
            | none =>
              simp only [hint] at hparse
              obtain ⟨-, hx, -⟩ := (exec_raise _ _).mp hparse
              cases hx
            | some m =>
              simp only [hint] at hparse
              obtain ⟨-, hx, -⟩ := (exec_ret _ _).mp hparse
              cases hx
              rfl
        · cases hx
    · cases hx
  · cases hx

/-- A guard file is written: what is left in it once it was opened, and what is not written. -/
theorem writeText_cases {p : Path} {text : Str} {x : Except PyExc Unit}
    (h : Exec Runs (writeText p text) d es x d') :
    evaluated es = [] ∧ (∀ q, IsGuard q → q ≠ p → d'.files q = d.files q) ∧
      (Opened p es → ∃ part, part <+: text ∧ d'.files p = some part) := by
  have hcalls : (writeText p text).OnlyCalls fun o => o.isOwn = true ∧ ∀ q, o.touches q → q = p :=
    onlyCalls_bind (onlyCalls_call ⟨rfl, fun _ h => h⟩) fun _ => onlyCalls_call ⟨rfl, fun _ h => h⟩
  refine ⟨?_, fun q hq hne => ?_, fun hopen => ?_⟩
  · exact List.filterMap_eq_nil_iff.mpr fun ev hev => completed_own (calls_of_exec h hcalls ev hev).1
  · exact files_of_exec h hq fun ev hev ht => hne ((calls_of_exec h hcalls ev hev).2 q ht)
  · rcases (exec_bind _ _ _).mp h with ⟨es₁, d₁, es₂, _, rfl, hfirst, h⟩ | ⟨e, hfirst, -⟩
    · obtain ⟨hanswer, -⟩ := (exec_await _ _).mp hfirst
      obtain ⟨hwrite, -⟩ := (exec_await _ _).mp h
      cases hanswer
      cases hwrite with
      | write => exact ⟨text, List.prefix_refl _, by simp⟩
      | failed => exact ⟨[], List.nil_prefix, by simp⟩
      | halfWritten _ _ hpart => exact ⟨_, hpart, by simp⟩
    · obtain ⟨-, rfl⟩ := (exec_await _ _).mp hfirst
      cases List.mem_singleton.mp hopen

section Evaluation

variable {executable input split : Str} {args : Args}

theorem inputOf_evalCmd (h : args.evalArgs = []) :
    inputOf (evalCmd executable input split args) = some input := by
  unfold evalCmd
  rw [h]
  rfl

/-- What an evaluation comes to: nothing, or it has completed and no guard file is open yet. -/
theorem runEval_cases (hdefault : args.evalArgs = []) {x : Except PyExc Path}
    (h : Exec Runs (runEval executable input split args) d es x d') :
    (Quiet d es d' ∧ ∃ e, x = .error e) ∨
      evaluated es = [input] ∧ (∀ p, IsGuard p → ¬ Opened p es) ∧ Spared IsGuard d d' := by
  have hmkdir : Bystander (.mkdir ["eval_reports".toList]) := bystander_reads rfl fun _ h => h
  rcases (exec_bind _ _ _).mp h with ⟨es₁, d₁, es₂, _, rfl, hdir, hrun⟩ | ⟨e, hdir, rfl⟩
  · have hquiet := quiet_call hmkdir hdir
    rcases (exec_bind _ _ _).mp hrun with ⟨es₃, d₂, es₄, _, rfl, heval, hreport⟩ | ⟨e, heval, rfl⟩
    · -- the evaluation has completed
      obtain ⟨hanswer, rfl⟩ := (exec_await _ _).mp heval
      have hspared : Spared IsGuard d₁ d₂ := fun p hp => files_of_answer hanswer hp fun ht => ht
      have hrest : Quiet d₂ es₄ d' := by
        refine quiet_of_exec ?_ hreport
        refine onlyCalls_bind (onlyCalls_call (bystander_reads rfl fun _ ht => ht)) fun reports => ?_
        split <;> exact trivial
      refine Or.inr ⟨?_, fun p hp hopen => ?_, fun p hp => ?_⟩
      · rw [evaluated_append, evaluated_append, hquiet.idle, hrest.idle, List.append_nil]
        simp [evaluated, completed, inputOf_evalCmd hdefault]
      · rcases opened_append.mp hopen with hopen | hopen
        · exact hquiet.closed p hp hopen
        · rcases opened_append.mp hopen with hopen | hopen
          · cases List.mem_singleton.mp hopen
          · exact hrest.closed p hp hopen
      · exact ((hrest.spared p hp).trans (hspared p hp)).trans (hquiet.spared p hp)
    · obtain ⟨hanswer, rfl⟩ := (exec_await _ _).mp heval
      exact Or.inl ⟨hquiet.append (quiet_failed hanswer fun p _ ht => ht), e, rfl⟩
  · exact Or.inl ⟨quiet_call hmkdir hdir, e, rfl⟩

/-- **An evaluation, its record and its guard file**: nothing, or it has completed, and once its guard
    file was opened the text is there, or as much of it as was written. -/
theorem guarded_cases {γ : Type} {record : Path → Script γ} {guard : Path} {text : γ → Str} {a : Int}
    {x : Except PyExc Int} (hdefault : args.evalArgs = []) (hguard : IsGuard guard)
    (hrecord : ∀ report, (record report).OnlyCalls Bystander)
    (h : Exec Runs (runEval executable input split args >>= fun report => record report >>= fun t =>
      writeText guard (text t) >>= fun _ => pure a) d es x d') :
    Quiet d es d' ∨ evaluated es = [input] ∧ (Opened guard es →
      (∃ t part, part <+: text t ∧ d'.files guard = some part) ∧
        ∀ q, IsGuard q → q ≠ guard → d'.files q = d.files q) := by
  rcases (exec_bind _ _ _).mp h with ⟨es₁, d₁, es₂, report, rfl, heval, hrest⟩ | ⟨e, heval, rfl⟩
  · rcases runEval_cases hdefault heval with ⟨-, e, hx⟩ | ⟨hset, hclosed, hspared⟩
    · cases hx
    · rcases (exec_bind _ _ _).mp hrest with ⟨es₃, d₂, es₄, t, rfl, hrec, hwrite⟩ | ⟨e, hrec, rfl⟩
      · have hquiet := quiet_of_exec (hrecord report) hrec
        have hwritten : ∃ y, Exec Runs (writeText guard (text t)) d₂ es₄ y d' := by
          rcases (exec_bind _ _ _).mp hwrite with ⟨es₅, d₃, es₆, _, rfl, hw, hret⟩ | ⟨e, hw, -⟩
          · obtain ⟨rfl, -, rfl⟩ := (exec_ret _ _).mp hret
            exact ⟨_, (List.append_nil es₅).symm ▸ hw⟩
          · exact ⟨_, hw⟩
        obtain ⟨y, hw⟩ := hwritten
        obtain ⟨hidle, hothers, hpart⟩ := writeText_cases hw
        refine Or.inr ⟨?_, fun hopen => ⟨?_, fun q hq hne => ?_⟩⟩
        · rw [evaluated_append, evaluated_append, hset, hquiet.idle, hidle, List.append_nil,
            List.append_nil]
        · rcases opened_append.mp hopen with hopen | hopen
          · exact absurd hopen (hclosed _ hguard)
          · rcases opened_append.mp hopen with hopen | hopen
            · exact absurd hopen (hquiet.closed _ hguard)
            · exact ⟨t, hpart hopen⟩
        · exact ((hothers q hq hne).trans (hquiet.spared q hq)).trans (hspared q hq)
      · have hquiet := quiet_of_exec (hrecord report) hrec
        refine Or.inr ⟨?_, fun hopen => ?_⟩
        · rw [evaluated_append, hset, hquiet.idle, List.append_nil]
        · exact ((opened_append.mp hopen).elim (hclosed _ hguard) (hquiet.closed _ hguard)).elim
  · rcases runEval_cases hdefault heval with ⟨hquiet, -⟩ | ⟨hset, hclosed, -⟩
    · exact Or.inl hquiet
    · exact Or.inr ⟨hset, fun hopen => absurd hopen (hclosed _ hguard)⟩

end Evaluation

/-- The count is one up, or as much of it as was written. -/
def Counted (d d' : Disk) : Prop :=
  ∃ n part, ReadsAs d n ∧ n < maxRuns ∧ part <+: intStr (n + 1) ∧
    d.files lockedSentinel = none ∧ d'.files lockedSentinel = none ∧ d'.files runCountFile = some part

/-- The test set is locked, and was not. -/
def Locked (d d' : Disk) : Prop :=
  d.files lockedSentinel = none ∧ d'.files lockedSentinel ≠ none

theorem Quiet.ahead (hq : Quiet d es d') {guard : Path} (hguard : IsGuard guard) {set : Str}
    {C : Prop} (K : Prop) (h : Quiet d' es' d'' ∨ evaluated es' = [set] ∧ (Opened guard es' → C))
    (hK : C → K) :
    Quiet d (es ++ es') d'' ∨ evaluated (es ++ es') = [set] ∧ (Opened guard (es ++ es') → K) := by
  rcases h with h | ⟨hset, hopened⟩
  · exact Or.inl (hq.append h)
  · refine Or.inr ⟨by rw [evaluated_append, hq.idle, hset, List.nil_append], fun hopen => hK ?_⟩
    exact hopened ((opened_append.mp hopen).resolve_left (hq.closed _ hguard))

section Commands

variable {lower : Str → Str} {fmt : Format} {executable : Str} {args : Args} {x : Except PyExc Int}

theorem isGuard_runCount : IsGuard runCountFile := Or.inl rfl

theorem isGuard_locked : IsGuard lockedSentinel := Or.inr rfl

theorem runCount_ne_locked : runCountFile ≠ lockedSentinel := by decide

/-- A stage of a command that ends here. -/
theorem Quiet.ret (hq : Quiet d es d') {n : Int} (h : Exec Runs (pure n : Script Int) d' es' x d'') :
    Quiet d (es ++ es') d'' := by
  obtain ⟨rfl, -, rfl⟩ := (exec_ret _ _).mp h
  exact hq.append (quiet_refl _)

theorem bystander_stat (p : Path) : Bystander (.stat p) := bystander_reads rfl fun _ h => h

/-- **All that `cmd_run` can do**: nothing, or an evaluation of the dev set within the budget, which is
    counted once the counter was opened. -/
theorem runCase_of_exec (hdefault : args.evalArgs = [])
    (h : Exec Runs (cmdRun fmt executable args) d es x d') :
    Quiet d es d' ∨ evaluated es = [devInput] ∧ (Opened runCountFile es → Counted d d') := by
  rcases (exec_bind _ _ _).mp h with ⟨es₁, d₁, es₂, locked, rfl, hlocked, hrest⟩ | ⟨e, hlocked, rfl⟩
  · have hq₁ := quiet_of_exec bystander_isLocked hlocked
    obtain ⟨hlocked, rfl⟩ := stat_ok hlocked
    cases locked with
    | true => exact Or.inl (hq₁.ret hrest)
    | false =>
      have hunlocked := files_of_not_has hlocked.symm
      rcases (exec_bind _ _ _).mp hrest with ⟨es₃, d₂, es₄, n, rfl, hread, hcount⟩ | ⟨e, hread, rfl⟩
      · have hq₂ := quiet_of_exec bystander_readRunCount hread
        have hreads := readRunCount_ok hread
        by_cases hbudget : n ≥ maxRuns
        · rw [if_pos hbudget] at hcount
          exact Or.inl (hq₁.append (hq₂.ret hcount))
        · rw [if_neg hbudget] at hcount
          rcases (exec_bind _ _ _).mp hcount with
            ⟨es₅, d₃, es₆, found, rfl, hstat, heval⟩ | ⟨e, hstat, rfl⟩
          · have hq₃ := quiet_call (bystander_stat _) hstat
            cases found with
            | false => exact Or.inl (hq₁.append (hq₂.append (hq₃.ret heval)))
            | true =>
              have hq := hq₂.append hq₃
              have hcases := guarded_cases hdefault isGuard_runCount
                (fun report => bystander_recordRun fmt args (n + 1) report) heval
              have hcounted := hq.ahead isGuard_runCount (Counted d₁ d') hcases fun hwritten => by
                obtain ⟨⟨_, part, hpart, hfile⟩, hothers⟩ := hwritten
                refine ⟨n, part, hreads, Int.not_le.mp hbudget, hpart, hunlocked, ?_, hfile⟩
                rw [hothers _ isGuard_locked runCount_ne_locked.symm, hq.spared _ isGuard_locked]
                exact hunlocked
              rw [List.append_assoc] at hcounted
              exact hq₁.ahead isGuard_runCount _ hcounted id
          · exact Or.inl (hq₁.append (hq₂.append (quiet_call (bystander_stat _) hstat)))
      · exact Or.inl (hq₁.append (quiet_of_exec bystander_readRunCount hread))
  · exact Or.inl (quiet_of_exec bystander_isLocked hlocked)

/-- **All that `cmd_final` can do**: nothing, or an evaluation of the test set, which is locked once the
    sentinel was opened. -/
theorem finalCase_of_exec (hdefault : args.evalArgs = [])
    (h : Exec Runs (cmdFinal lower fmt executable args) d es x d') :
    Quiet d es d' ∨ evaluated es = [testInput] ∧ (Opened lockedSentinel es → Locked d d') := by
  rcases (exec_bind _ _ _).mp h with ⟨es₁, d₁, es₂, locked, rfl, hlocked, hrest⟩ | ⟨e, hlocked, rfl⟩
  · have hq₁ := quiet_of_exec bystander_isLocked hlocked
    obtain ⟨hlocked, rfl⟩ := stat_ok hlocked
    cases locked with
    | true => exact Or.inl (hq₁.ret hrest)
    | false =>
      have hunlocked := files_of_not_has hlocked.symm
      rcases (exec_bind _ _ _).mp hrest with ⟨es₃, d₂, es₄, going, rfl, hyes, hgo⟩ | ⟨e, hyes, rfl⟩
      · have hq₂ := quiet_of_exec (bystander_confirmed lower args) hyes
        cases going with
        | false => exact Or.inl (hq₁.append (hq₂.ret hgo))
        | true =>
          rcases (exec_bind _ _ _).mp hgo with
            ⟨es₅, d₃, es₆, found, rfl, hstat, heval⟩ | ⟨e, hstat, rfl⟩
          · have hq₃ := quiet_call (bystander_stat _) hstat
            cases found with
            | false => exact Or.inl (hq₁.append (hq₂.append (hq₃.ret heval)))
            | true =>
              have hcases := guarded_cases hdefault isGuard_locked
                (fun report => bystander_recordFinal fmt args report) heval
              have hlock := (hq₂.append hq₃).ahead isGuard_locked (Locked d₁ d') hcases
                fun hwritten => by
                  obtain ⟨⟨_, part, -, hfile⟩, -⟩ := hwritten
                  exact ⟨hunlocked, by rw [hfile]; exact Option.some_ne_none part⟩
              rw [List.append_assoc] at hlock
              exact hq₁.ahead isGuard_locked _ hlock id
          · exact Or.inl (hq₁.append (hq₂.append (quiet_call (bystander_stat _) hstat)))
      · exact Or.inl (hq₁.append (quiet_of_exec (bystander_confirmed lower args) hyes))
  · exact Or.inl (quiet_of_exec bystander_isLocked hlocked)

end Commands

end Cases

/-! ## 5. The evaluations against the guard files -/

section Ledgers

variable {lower : Str → Str} {fmt : Format} {executable : Str} {d₀ d d' : Disk} {tr : List Step}
  {i : Invocation} {es : List (Event Call Reply PyExc)} {x : Except PyExc Int}

/-- What the counter says, if it can be read. -/
def Tallies (d : Disk) (k : Nat) : Prop :=
  match d.files runCountFile with
  | none => k = 0
  | some text => ∀ n, parseInt text = some n → n = k

/-- **The account of a sequence of commands**: while the test set is not locked it has not been
    evaluated, and the counter has every evaluation of the dev set. -/
structure Ledger (tr : List Step) (d : Disk) : Prop where
  budget : WithinBudget (evaluations tr)
  untested : d.files lockedSentinel = none → testInput ∉ evaluations tr
  tallied : d.files lockedSentinel = none → Tallies d ((evaluations tr).count devInput)

theorem tallies_congr {k : Nat} (h : d'.files runCountFile = d.files runCountFile) :
    Tallies d' k ↔ Tallies d k := by
  unfold Tallies
  rw [h]

theorem tallies_read {k : Nat} {n : Int} (h : Tallies d k) (hread : ReadsAs d n) : n = k := by
  unfold Tallies at h
  rcases hread with ⟨hnone, rfl⟩ | ⟨text, htext, hn⟩
  · rw [hnone] at h
    rw [h]
    rfl
  · rw [htext] at h
    exact h n hn

/-- A count within the budget is one digit: what is written of it is nothing, or all. -/
theorem parseInt_part {k : Nat} (hk : (k : Int) < maxRuns) {part : Str}
    (hpart : part <+: intStr ((k : Int) + 1)) {n : Int} (hn : parseInt part = some n) :
    n = (k + 1 : Nat) := by
  unfold maxRuns at hk
  have hdigit : ∃ c, intStr ((k : Int) + 1) = [c] ∧ parseInt [c] = some ((k + 1 : Nat) : Int) := by
    have hcases : k = 0 ∨ k = 1 ∨ k = 2 := by omega
    rcases hcases with rfl | rfl | rfl
    · exact ⟨'1', by decide, by decide⟩
    · exact ⟨'2', by decide, by decide⟩
    · exact ⟨'3', by decide, by decide⟩
  obtain ⟨c, hc, hparse⟩ := hdigit
  rw [hc] at hpart
  cases part with
  | nil =>
    have hempty : parseInt [] = none := by decide
    rw [hempty] at hn
    cases hn
  | cons a part =>
    obtain ⟨hac, hrest⟩ := List.cons_prefix_cons.mp hpart
    rw [hac, List.prefix_nil.mp hrest, hparse] at hn
    exact (Option.some.inj hn).symm

theorem ledger_start (h : Fresh d₀) : Ledger [] d₀ where
  budget := ⟨by decide, by decide, .nil⟩
  untested _ := List.not_mem_nil
  tallied _ := by
    unfold Tallies
    rw [h _ isGuard_runCount]
    rfl

/-- A command that comes to nothing. -/
theorem ledger_quiet (h : Ledger tr d) (hquiet : Quiet d es d') :
    Ledger (⟨d, .ran i es x, d'⟩ :: tr) d' := by
  have hsame : evaluations (⟨d, .ran i es x, d'⟩ :: tr) = evaluations tr := by
    rw [evaluations, hquiet.idle]
    rfl
  have hunlocked : d'.files lockedSentinel = none → d.files lockedSentinel = none := fun hnone =>
    (hquiet.spared _ isGuard_locked).symm.trans hnone
  constructor
  · exact hsame ▸ h.budget
  · exact fun hnone => hsame ▸ h.untested (hunlocked hnone)
  · exact fun hnone => hsame ▸
      (tallies_congr (hquiet.spared _ isGuard_runCount)).mpr (h.tallied (hunlocked hnone))

/-- The dev set was evaluated, and is counted. -/
theorem ledger_counted (h : Ledger tr d) (hset : evaluated es = [devInput]) (hcounted : Counted d d') :
    Ledger (⟨d, .ran i es x, d'⟩ :: tr) d' := by
  obtain ⟨n, part, hread, hn, hpart, hunlocked, hunlocked', hfile⟩ := hcounted
  have hsets : evaluations (⟨d, .ran i es x, d'⟩ :: tr) = devInput :: evaluations tr := by
    rw [evaluations, hset]
    rfl
  have huntested := h.untested hunlocked
  obtain rfl := tallies_read (h.tallied hunlocked) hread
  constructor
  · rw [hsets]
    refine ⟨?_, ?_, List.pairwise_cons.mpr ⟨fun earlier hmem hbad => ?_, h.budget.order⟩⟩
    · rw [List.count_cons_self]
      omega
    · rw [List.count_cons_of_ne (by decide), List.count_eq_zero_of_not_mem huntested]
      decide
    · exact huntested (hbad.2 ▸ hmem)
  · intro _ hmem
    rw [hsets] at hmem
    exact (List.mem_cons.mp hmem).elim (by decide) huntested
  · intro _
    rw [hsets, List.count_cons_self]
    unfold Tallies
    rw [hfile]
    exact fun m hm => parseInt_part hn hpart hm

/-- The test set was evaluated, and is locked. -/
theorem ledger_locked (h : Ledger tr d) (hset : evaluated es = [testInput]) (hlocked : Locked d d') :
    Ledger (⟨d, .ran i es x, d'⟩ :: tr) d' := by
  have hsets : evaluations (⟨d, .ran i es x, d'⟩ :: tr) = testInput :: evaluations tr := by
    rw [evaluations, hset]
    rfl
  constructor
  · rw [hsets]
    refine ⟨?_, ?_, List.pairwise_cons.mpr ⟨fun earlier _ hbad => ?_, h.budget.order⟩⟩
    · rw [List.count_cons_of_ne (by decide)]
      exact h.budget.dev
    · rw [List.count_cons_self, List.count_eq_zero_of_not_mem (h.untested hlocked.1)]
    · exact absurd hbad.1 (by decide)
  · exact fun hnone => absurd hnone hlocked.2
  · exact fun hnone => absurd hnone hlocked.2

/-- STEP: one more command. -/
theorem ledger_ran (h : Ledger tr d) (hrun : Exec Runs (command lower fmt executable i) d es x d')
    (hok : DefaultArgs ⟨d, .ran i es x, d'⟩ ∧ Guarded ⟨d, .ran i es x, d'⟩) :
    Ledger (⟨d, .ran i es x, d'⟩ :: tr) d' := by
  have hdefault := hok.1 i es x rfl
  have hguarded := hok.2 i es x rfl
  cases i with
  | run args =>
    rcases runCase_of_exec hdefault hrun with hquiet | ⟨hset, hopened⟩
    · exact ledger_quiet h hquiet
    · exact ledger_counted h hset (hopened (hguarded (hset ▸ List.cons_ne_nil _ _)))
  | final args =>
    rcases finalCase_of_exec hdefault hrun with hquiet | ⟨hset, hopened⟩
    · exact ledger_quiet h hquiet
    · exact ledger_locked h hset (hopened (hguarded (hset ▸ List.cons_ne_nil _ _)))

/-- STEP: time that passes. -/
theorem ledger_idled (h : Ledger tr d) (hidle : Meanwhile d d') :
    Ledger (⟨d, .idled, d'⟩ :: tr) d' where
  budget := h.budget
  untested hnone := h.untested (hidle.2 hnone)
  tallied hnone := (tallies_congr hidle.1).mpr (h.tallied (hidle.2 hnone))

/-- **The budget and the test-set lock hold as long as every evaluation that completes gets its guard
    file opened**, whatever else fails, and whatever fails from there on. -/
theorem budget_kept (hfresh : Fresh d₀) (h : Commands lower fmt executable d₀ tr d)
    (hdefault : ∀ e ∈ tr, DefaultArgs e) (hguarded : ∀ e ∈ tr, Guarded e) :
    WithinBudget (evaluations tr) :=
  (h.invariant (fun e => DefaultArgs e ∧ Guarded e) Ledger (ledger_start hfresh) ledger_ran ledger_idled
    fun e he => ⟨hdefault e he, hguarded e he⟩).budget

end Ledgers

end Experiment

/-! ## 6. Concrete commands -/

open Experiment

namespace Sample

def missing : PyExc := .osError "No such file or directory".toList

/-- A machine on which nothing fails by itself; an evaluation leaves an empty report. -/
def served (d : Disk) : (o : Call) → Except PyExc (Reply o) × Disk
  | .stat p => (.ok (d.has p), d)
  | .mkdir p => (.ok (), d.makeDir p)
  | .readText p => ((d.files p).elim (.error missing) .ok, d)
  | .openWrite p => if d.dirs p.dropLast then (.ok (), d.put p []) else (.error missing, d)
  | .openAppend p =>
    if d.dirs p.dropLast then (.ok (), d.put p ((d.files p).getD [])) else (.error missing, d)
  | .write p text => (.ok (), d.put p ((d.files p).getD [] ++ text))
  | .copy src dst =>
    (d.files src).elim (.error missing, d) fun text =>
      if d.dirs dst.dropLast then (.ok (), d.put dst text) else (.error missing, d)
  | .glob dir _ =>
    (.ok ([dir ++ ["report".toList]].filter fun p => p.dropLast = dir ∧ (d.files p).isSome), d)
  | .subprocess _ => (.ok (), d.put ["eval_reports".toList, "report".toList] ['{', '}'])
  | .input => (.ok ['y'], d)
  | .now => (.ok "2026-04-20T10:30:00".toList, d)

theorem answers_served (d : Disk) (o : Call) : Runs d o (served d o).1 (served d o).2 := by
  cases o with
  | stat p => exact .stat d p
  | mkdir p => exact .mkdir d p
  | readText p =>
    simp only [served]
    cases htext : d.files p with
    | none => exact .failed d _ _
    | some text => exact .readText htext
  | openWrite p =>
    simp only [served]
    split
    · next hdir => exact .openWrite hdir
    · exact .failed d _ _
  | openAppend p =>
    simp only [served]
    split
    · next hdir => exact .openAppend hdir
    · exact .failed d _ _
  | write p text => exact .write d p text
  | copy src dst =>
    simp only [served]
    cases htext : d.files src with
    | none => exact .failed d _ _
    | some text =>
      simp only [Option.elim_some]
      split
      · next hdir => exact .copy htext hdir
      · exact .failed d _ _
  | glob dir pattern =>
    refine .glob pattern fun p hp => ?_
    simpa using (List.mem_filter.mp hp).2
  | subprocess cmd =>
    refine .subprocess cmd fun p hp => files_put_ne _ ?_ _
    rintro rfl
    revert hp
    unfold IsGuard
    decide
  | input => exact .input d _
  | now => exact .now d _

/-- The machine, when some calls fail. -/
def answerCall (fails : Call → Option PyExc) (d : Disk) (o : Call) : Except PyExc (Reply o) × Disk :=
  match fails o with
  | some e => (.error e, d)
  | none => served d o

theorem answers_call (fails : Call → Option PyExc) (d : Disk) (o : Call) :
    Runs d o (answerCall fails d o).1 (answerCall fails d o).2 := by
  unfold answerCall
  cases fails o with
  | some e => exact .failed d o e
  | none => exact answers_served d o

/-- Formatting that is right for the metrics of an empty report. -/
def plain : Format := ⟨fun _ => ['0'], fun _ => .ok "0.0".toList, fun _ => .ok []⟩

/-- A command for version `v1`, without further arguments. -/
def tuning : Invocation := .run { psv := "v1".toList }

def testing : Invocation := .final { psv := "v1".toList, yes := true }

/-- The two data sets and nothing else. -/
def checkout : Disk where
  files p := if p = pathOf devInput ∨ p = pathOf testInput then some ['[', ']'] else none
  dirs _ := false

/-- The commands of a list, the last first, on that machine. -/
def play (fails : Call → Option PyExc) : List Invocation → List Step × Disk
  | [] => ([], checkout)
  | i :: is =>
    let d := (play fails is).2
    let body := command id plain "python".toList i
    let last := body.interp (answerCall fails) d
    (⟨d, .ran i (body.events (answerCall fails) d) last.1, last.2⟩ :: (play fails is).1, last.2)

theorem commands_play (fails : Call → Option PyExc) : ∀ is : List Invocation,
    Commands id plain "python".toList checkout (play fails is).1 (play fails is).2
  | [] => .start
  | i :: is => .ran (commands_play fails is)
      (exec_events (answerCall fails) (answers_call fails) (command id plain "python".toList i) _)

/-- The disk has no room for a copy. -/
def copyFails : Call → Option PyExc
  | .copy _ _ => some (.osError "No space left on device".toList)
  | _ => none

theorem fresh_checkout : Fresh checkout := by
  intro p hp
  rcases hp with rfl | rfl <;> rfl

theorem default_play (fails : Call → Option PyExc) : ∀ {is : List Invocation},
    (∀ i ∈ is, i.args.evalArgs = []) → ∀ e ∈ (play fails is).1, DefaultArgs e
  | [], _, e, he => absurd he List.not_mem_nil
  | i :: is, h, e, he => by
    obtain ⟨hi, his⟩ := List.forall_mem_cons.mp h
    rcases List.mem_cons.mp he with rfl | he
    · intro j es x hturn
      cases hturn
      exact hi
    · exact default_play fails his e he

/-- The evaluation of version `v2` fails. -/
def retuning : Invocation := .run { psv := "v2".toList }

def evalFails : Call → Option PyExc
  | .subprocess cmd =>
    if cmd.any fun arg => arg = "v2".toList then some (.exception "returned non-zero exit status 1.".toList) else none
  | _ => none

/-- A tuning run, one that fails, the final evaluation, and a tuning run that comes too late. -/
def campaign : List Step × Disk := play evalFails [tuning, testing, retuning, tuning]

end Sample

/-- The call opened the file for writing. -/
def opensFile (p : Path) : Event Call Reply PyExc → Bool
  | ⟨.openWrite q, .ok _⟩ => q = p
  | _ => false

/-- A check of one command that is enough for its condition. -/
def isGuarded (e : Step) : Bool :=
  match e.turn with
  | .ran i es _ => (evaluated es).isEmpty || es.any (opensFile i.guard)
  | .idled => true

theorem guarded_of_isGuarded {e : Step} (h : isGuarded e = true) : Guarded e := by
  intro i es x hturn hevaluated
  unfold isGuarded at h
  rw [hturn] at h
  rcases Bool.or_eq_true_iff.mp h with hnone | hopened
  · exact absurd (List.isEmpty_iff.mp hnone) hevaluated
  · obtain ⟨ev, hev, hopens⟩ := List.any_eq_true.mp hopened
    unfold opensFile at hopens
    split at hopens
    · next q _ =>
      cases of_decide_eq_true hopens
      exact hev
    · cases hopens

/-- One of the two tuning runs fails, the test set is evaluated once, and nothing is after that. -/
theorem budget_kept_campaign : evaluations Sample.campaign.1 = [testInput, devInput] ∧
    WithinBudget (evaluations Sample.campaign.1) := by
  have hguarded : Sample.campaign.1.all isGuarded = true := by decide +kernel
  exact ⟨by decide +kernel, budget_kept Sample.fresh_checkout (Sample.commands_play _ _)
    (Sample.default_play _ (by decide)) fun e he =>
      guarded_of_isGuarded (List.all_eq_true.mp hguarded e he)⟩

/-- **The guards are lost when something fails after the evaluation.** With no room for the copy the
    dev set is evaluated four times; and in a fresh checkout, where there is no directory to copy the
    result into, the test set is evaluated twice although nothing else fails. -/
theorem guards_lost : Fresh Sample.checkout ∧
    (∃ tr d, Commands id Sample.plain "python".toList Sample.checkout tr d ∧
      (∀ e ∈ tr, DefaultArgs e) ∧ (evaluations tr).count devInput = 4) ∧
    ∃ tr d, Commands id Sample.plain "python".toList Sample.checkout tr d ∧
      (∀ e ∈ tr, DefaultArgs e) ∧ (evaluations tr).count testInput = 2 := by
  refine ⟨Sample.fresh_checkout, ?_, ?_⟩
  · refine ⟨_, _, Sample.commands_play Sample.copyFails
      [Sample.tuning, Sample.tuning, Sample.tuning, Sample.tuning], Sample.default_play _ (by decide), ?_⟩
    decide +kernel
  · refine ⟨_, _, Sample.commands_play (fun _ => none) [Sample.testing, Sample.testing],
      Sample.default_play _ (by decide), ?_⟩
    decide +kernel

end InvoiceOcr
