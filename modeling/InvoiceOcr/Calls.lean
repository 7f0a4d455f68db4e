/-
  File:      InvoiceOcr/Calls.lean
  Subject:   WHAT THE CODE AWAITS. Every awaited call of the modelled functions, and what Postgres
             and Redis do with it.

  * `Externals` -- what the code takes from Pillow, imagehash, httpx and urllib, as parameters;
  * `Op`, `Ans` -- the calls and the types of their answers; `Py` -- coroutine bodies over them;
  * `JobRow`, `JobsTable` -- the jobs table of src/migrations with its primary key and its checks;
  * `World` -- jobs table, queue, Redis strings and hashes, Postgres clock;
  * `Sem` -- a call takes effect and answers, or raises and changes nothing; `Drift` -- time
    passes, a Redis key with a time to live expires.
-/
import Mathlib.Algebra.Group.Nat.Defs
import InvoiceOcr.Async.System
import InvoiceOcr.Schemas
import InvoiceOcr.Store.Table

namespace InvoiceOcr

open PyJson Async

/-! ## 1. Third-party values -/

/-- What the code looks at in a Pillow image. -/
structure Image where
  mode : Str
  width : Nat
  height : Nat
  pixels : Bytes
  deriving DecidableEq, Repr

/-- An array of exact numbers in row-major order. -/
structure Tensor where
  shape : List Nat
  data : List Rat
  size_eq : data.length = shape.prod

/-- A reply of Triton, as what `resp.as_numpy("output0")` does with it: an array, `None` where the
    reply has no such output, or an exception. -/
abbrev InferReply := Except PyExc (Option Tensor)

structure HttpResponse where
  statusCode : Nat
  location : Option Str := none
  content : Bytes := []
  deriving DecidableEq, Repr

/-- The request of one `generate_content` call that varies: prompt and image. -/
structure GenerateRequest where
  systemInstruction : Str
  jpegBytes : Bytes
  deriving DecidableEq, Repr

/-- Library functions that do not await. -/
structure Externals where
  /-- `urlparse(url).hostname`. -/
  hostname : Str → Except PyExc (Option Str)
  /-- The request URL of a redirect: the URL answered and its `Location`. -/
  redirectUrl : Str → Str → Except PyExc Str
  /-- `Image.open(io.BytesIO(raw))` and `img.load()`. -/
  openImage : Bytes → Except PyExc Image
  /-- `ImageOps.exif_transpose(img)`. -/
  exifTranspose : Image → Except PyExc (Option Image)
  /-- `img.convert("RGB")`. -/
  convertRgb : Image → Except PyExc Image
  /-- `img.thumbnail((n, n), LANCZOS)`. -/
  thumbnail : Image → Nat → Except PyExc Image
  /-- `str(imagehash.phash(img))`. -/
  imagePhash : Image → Except PyExc Str
  /-- `img.resize((new_w, new_h), BILINEAR)` pasted at `(pad_x, pad_y)` on the grey canvas, as a
      `(1, 3, 640, 640)` array of numbers between 0 and 1. -/
  letterboxed : Image → Int → Int → Int → Int → Except PyExc Tensor
  /-- `img.crop((x1, y1, x2, y2))`. -/
  crop : Image → Int → Int → Int → Int → Except PyExc Image
  /-- `img.save(buf, format="JPEG", quality=…)`. -/
  encodeJpeg : Image → Except PyExc Bytes
  /-- The directory `src`. -/
  sourceDir : Str
  /-- `path.read_text()` where `path.exists()`. -/
  readFile : Str → Option Str
  /-- `repr` of a text. -/
  repr : Str → Str
  /-- `f"{x:.3f}"` and `f"{x}"` of a float. -/
  fixed3 : Rat → Str
  floatText : Rat → Str

/-! ## 2. The jobs table -/

structure JobRow where
  jobId : Uuid
  status : JobStatus
  phash : Option Str := none
  imageUrl : Str
  result : Option Dict := none
  errorCode : Option Str := none
  errorMessage : Option Str := none
  /-- Microseconds of the Postgres clock. -/
  createdAt : Nat
  updatedAt : Nat

/-- `jobs_succeeded_has_result_chk`, and `image_url VARCHAR(512)`. -/
def JobRow.Check (r : JobRow) : Prop :=
  (r.status = .succeeded → r.result.isSome = true) ∧ r.imageUrl.length ≤ 512

instance : DecidablePred JobRow.Check := fun _ => inferInstanceAs (Decidable (_ ∧ _))

abbrev JobsTable := Relational.Table JobRow.jobId JobRow.Check

/-- The columns one `update_job_status` writes besides `updated_at`; `none` is not written. -/
structure JobSet where
  status : JobStatus
  result : Option Dict := none
  errorCode : Option Str := none
  errorMessage : Option Str := none
  phash : Option Str := none

/-- The row after `UPDATE jobs SET …` at time `now`. -/
def JobSet.apply (s : JobSet) (now : Nat) : Relational.Table.Rewrite JobRow.jobId where
  run r :=
    { r with
      status := s.status
      updatedAt := now
      result := s.result.or r.result
      errorCode := s.errorCode.or r.errorCode
      errorMessage := s.errorMessage.or r.errorMessage
      phash := s.phash.or r.phash }
  keeps _ := rfl

/-- The row after `UPDATE jobs SET updated_at = now()`. -/
def touchRow (now : Nat) : Relational.Table.Rewrite JobRow.jobId where
  run r := { r with updatedAt := now }
  keeps _ := rfl

/-- The `WHERE` of `select_stale_jobs`, the windows in microseconds. -/
def JobRow.isStale (now procWindow pendWindow : Nat) (r : JobRow) : Bool :=
  (r.status = .processing && r.updatedAt + procWindow < now) ||
    (r.status = .pending && r.createdAt + pendWindow < now)

/-- The `WHERE` of `purge_old_job_records`. -/
def JobRow.isOld (now retWindow : Nat) (r : JobRow) : Bool :=
  r.status.isTerminal && r.updatedAt + retWindow < now

/-! ## 3. Calls -/

/-- The awaited calls: the statements on `jobs`, the Redis commands, the services. -/
inductive Op where
  | insertJob (jobId : Uuid) (status : JobStatus) (imageUrl : Str)
  | updateJob (jobId : Uuid) (set : JobSet)
  | touchJob (jobId : Uuid)
  | selectJob (jobId : Uuid)
  | selectStale (procWindow pendWindow : Nat)
  | deleteOld (retWindow : Nat)
  | lpush (value : Str)
  | brpop
  | llen
  | get (key : Str)
  | setex (key : Str) (seconds : Nat) (value : Str)
  | hincrby (key field : Str)
  | expire (key : Str) (seconds : Nat)
  | request (url : Str)
  | infer (batch : Tensor)
  | acquire
  | generateContent (req : GenerateRequest)
  | sleep (seconds : Rat)

/-- What a call answers. -/
@[reducible] def Ans : Op → Type
  | .insertJob _ _ _ => Unit
  | .updateJob _ _ => Unit
  | .touchJob _ => Unit
  | .selectJob _ => Option JobRow
  | .selectStale _ _ => List JobRow
  | .deleteOld _ => Nat
  | .lpush _ => Unit
  | .brpop => Option Str
  | .llen => Nat
  | .get _ => Option Str
  | .setex _ _ _ => Unit
  | .hincrby _ _ => Nat
  | .expire _ _ => Unit
  | .request _ => HttpResponse
  | .infer _ => InferReply
  | .acquire => Bool
  | .generateContent _ => Option Str
  | .sleep _ => Unit

/-- A coroutine of the program. -/
abbrev Py := Proc Op Ans PyExc

/-- `await` of one call. -/
abbrev await (o : Op) : Py (Ans o) := Proc.await o

/-- One call whose exceptions are mapped makes no other call. -/
theorem onlyCalls_mapped {P : Op → Prop} {o : Op} (h : P o) (f : PyExc → PyExc) :
    ((await o).tryCatch fun e => .raise (f e)).OnlyCalls P :=
  onlyCalls_tryElse (onlyCalls_await h) (fun _ => trivial) fun _ => trivial

/-- The statements on the jobs table. -/
def Op.isPostgres : Op → Bool
  | .insertJob _ _ _ => true
  | .updateJob _ _ => true
  | .touchJob _ => true
  | .selectJob _ => true
  | .selectStale _ _ => true
  | .deleteOld _ => true
  | _ => false

/-- The Redis commands. -/
def Op.isRedis : Op → Bool
  | .lpush _ => true
  | .brpop => true
  | .llen => true
  | .get _ => true
  | .setex _ _ _ => true
  | .hincrby _ _ => true
  | .expire _ _ => true
  | _ => false

/-- The calls of the pipeline stages; they touch neither store. -/
def Op.isStage : Op → Bool
  | .request _ => true
  | .infer _ => true
  | .acquire => true
  | .generateContent _ => true
  | .sleep _ => true
  | _ => false

/-! ## 4. The world -/

/-- A Redis hash of counters; `expires` once a time to live is set on its key. -/
structure RedisHash where
  fields : Str → Option Nat
  expires : Bool

/-- The shared stores. The head of `queue` is the left end of the Redis list. -/
structure World where
  now : Nat
  jobs : JobsTable
  queue : List Str
  strings : Str → Option Str
  hashes : Str → Option RedisHash

/-- Empty stores. -/
def World.fresh (now : Nat) : World :=
  ⟨now, .empty, [], fun _ => none, fun _ => none⟩

/-- The counter in a field of a hash; an absent one counts zero. -/
def World.counter (w : World) (key field : Str) : Nat :=
  match w.hashes key with
  | some h => (h.fields field).getD 0
  | none => 0

/-- `HINCRBY key field 1`. -/
def World.bump (w : World) (key field : Str) : World :=
  let old := (w.hashes key).getD ⟨fun _ => none, false⟩
  let new : RedisHash :=
    { old with fields := fun f => if f = field then some (w.counter key field + 1) else old.fields f }
  { w with hashes := fun k => if k = key then some new else w.hashes k }

/-- `EXPIRE key`. -/
def World.setExpiry (w : World) (key : Str) : World :=
  { w with hashes := fun k =>
      if k = key then (w.hashes key).map fun h => { h with expires := true } else w.hashes k }

/-- What a call does when it takes effect: its answer and the world after it. `BRPOP` pops the
    right end, or times out on an empty queue. -/
def Effect (w : World) : (o : Op) → Ans o → World → Prop
  | .insertJob j status url, _, w' => ∃ t,
      w.jobs.insert { jobId := j, status, imageUrl := url, createdAt := w.now, updatedAt := w.now }
        = some t ∧ w' = { w with jobs := t }
  | .updateJob j set, _, w' => ∃ t,
      w.jobs.modify j (set.apply w.now) = some t ∧ w' = { w with jobs := t }
  | .touchJob j, _, w' => ∃ t,
      w.jobs.modify j (touchRow w.now) = some t ∧ w' = { w with jobs := t }
  | .selectJob j, a, w' => a = w.jobs.find j ∧ w' = w
  | .selectStale p q, a, w' => a = w.jobs.select (JobRow.isStale w.now p q) ∧ w' = w
  | .deleteOld p, a, w' =>
      a = (w.jobs.select (JobRow.isOld w.now p)).length ∧
        w' = { w with jobs := w.jobs.delete (JobRow.isOld w.now p) }
  | .lpush m, _, w' => w' = { w with queue := m :: w.queue }
  | .brpop, none, w' => w.queue = [] ∧ w' = w
  | .brpop, some m, w' => ∃ q, w.queue = q ++ [m] ∧ w' = { w with queue := q }
  | .llen, a, w' => a = w.queue.length ∧ w' = w
  | .get key, a, w' => a = w.strings key ∧ w' = w
  | .setex key _ value, _, w' =>
      w' = { w with strings := fun k => if k = key then some value else w.strings k }
  | .hincrby key field, a, w' => a = w.counter key field + 1 ∧ w' = w.bump key field
  | .expire key _, _, w' => w' = w.setExpiry key
  | .request _, _, w' => w' = w
  | .infer _, _, w' => w' = w
  | .acquire, _, w' => w' = w
  | .generateContent _, _, w' => w' = w
  | .sleep _, _, w' => w' = w

/-- **The answer of a call.** It takes effect, or raises with no effect. -/
def Sem (w : World) (o : Op) : Except PyExc (Ans o) → World → Prop
  | .ok a, w' => Effect w o a w'
  | .error _, w' => w' = w

/-- **What happens by itself**: the clock advances; a cached text or a hash that has a time to
    live expires. -/
inductive Drift : World → World → Prop where
  | tick (w : World) (d : Nat) : Drift w { w with now := w.now + d }
  | expireString (w : World) (key : Str) :
      Drift w { w with strings := fun k => if k = key then none else w.strings k }
  | expireHash (w : World) (key : Str) {h : RedisHash} (hk : w.hashes key = some h)
      (he : h.expires = true) :
      Drift w { w with hashes := fun k => if k = key then none else w.hashes k }

/-! ## 5. What a call does to one row, to the queue, to a counter -/

/-- **All that a call can do to the row of a job.** -/
inductive RowChange (w w' : World) (j : Uuid) : (o : Op) → Except PyExc (Ans o) → Prop where
  | same {o : Op} {r : Except PyExc (Ans o)} (h : w'.jobs.find j = w.jobs.find j) :
      RowChange w w' j o r
  | inserted {status : JobStatus} {url : Str} (h : w.jobs.find j = none)
      (h' : w'.jobs.find j = some
        { jobId := j, status, imageUrl := url, createdAt := w.now, updatedAt := w.now }) :
      RowChange w w' j (.insertJob j status url) (.ok ())
  | updated {set : JobSet} (h : w'.jobs.find j = (w.jobs.find j).map (set.apply w.now).run) :
      RowChange w w' j (.updateJob j set) (.ok ())
  | touched (h : w'.jobs.find j = (w.jobs.find j).map (touchRow w.now).run) :
      RowChange w w' j (.touchJob j) (.ok ())
  | purged {p n : Nat}
      (h : w'.jobs.find j = (w.jobs.find j).filter fun r => !r.isOld w.now p) :
      RowChange w w' j (.deleteOld p) (.ok n)

theorem rowChange_of_sem {w w' : World} {o : Op} {r : Except PyExc (Ans o)} (h : Sem w o r w')
    (j : Uuid) : RowChange w w' j o r := by
  cases r with
  | error e => exact .same (by rw [show w' = w from h])
  | ok a =>
    cases o with
    | insertJob j' status url =>
      obtain ⟨t, ht, rfl⟩ := h
      by_cases hj : j' = j
      · subst hj
        exact .inserted (Relational.Table.find_of_insert ht)
          (by rw [Relational.Table.find_insert ht, if_pos rfl])
      · exact .same (by rw [Relational.Table.find_insert ht, if_neg hj])
    | updateJob j' set =>
      obtain ⟨t, ht, rfl⟩ := h
      by_cases hj : j = j'
      · subst hj
        exact .updated (by rw [Relational.Table.find_modify ht, if_pos rfl])
      · exact .same (by rw [Relational.Table.find_modify ht, if_neg hj])
    | touchJob j' =>
      obtain ⟨t, ht, rfl⟩ := h
      by_cases hj : j = j'
      · subst hj
        exact .touched (by rw [Relational.Table.find_modify ht, if_pos rfl])
      · exact .same (by rw [Relational.Table.find_modify ht, if_neg hj])
    | deleteOld p =>
      obtain ⟨-, rfl⟩ := h
      exact .purged (Relational.Table.find_delete _ _ _)
    | brpop =>
      cases a with
      | none => exact .same (by rw [h.2])
      | some m => obtain ⟨q, _, rfl⟩ := h; exact .same rfl
    | selectJob => exact .same (by rw [h.2])
    | selectStale => exact .same (by rw [h.2])
    | llen => exact .same (by rw [h.2])
    | get => exact .same (by rw [h.2])
    | hincrby => exact .same (by rw [h.2]; rfl)
    | lpush => exact .same (by rw [show w' = _ from h])
    | setex => exact .same (by rw [show w' = _ from h])
    | expire => exact .same (by rw [show w' = _ from h]; rfl)
    | request => exact .same (by rw [show w' = w from h])
    | infer => exact .same (by rw [show w' = w from h])
    | acquire => exact .same (by rw [show w' = w from h])
    | generateContent => exact .same (by rw [show w' = w from h])
    | sleep => exact .same (by rw [show w' = w from h])

/-- A row that a statement has just written carries its time. -/
theorem updatedAt_of_write {w w' : World} {o : Op} {a : Ans o} (h : Sem w o (.ok a) w') {j : Uuid}
    (ho : o = .touchJob j ∨ ∃ set, o = .updateJob j set) {row : JobRow}
    (hrow : w'.jobs.find j = some row) : row.updatedAt = w.now := by
  rcases ho with rfl | ⟨set, rfl⟩
  · obtain ⟨t, ht, rfl⟩ := h
    rw [Relational.Table.find_modify ht, if_pos rfl] at hrow
    obtain ⟨old, _, rfl⟩ := Option.map_eq_some_iff.mp hrow
    rfl
  · obtain ⟨t, ht, rfl⟩ := h
    rw [Relational.Table.find_modify ht, if_pos rfl] at hrow
    obtain ⟨old, _, rfl⟩ := Option.map_eq_some_iff.mp hrow
    rfl

/-- No call moves the clock. -/
theorem now_of_sem {w w' : World} {o : Op} {r : Except PyExc (Ans o)} (h : Sem w o r w') :
    w'.now = w.now := by
  cases r with
  | error e => rw [show w' = w from h]
  | ok a =>
    cases o with
    | insertJob => obtain ⟨t, _, rfl⟩ := h; rfl
    | updateJob => obtain ⟨t, _, rfl⟩ := h; rfl
    | touchJob => obtain ⟨t, _, rfl⟩ := h; rfl
    | deleteOld => obtain ⟨_, rfl⟩ := h; rfl
    | brpop =>
      cases a with
      | none => rw [h.2]
      | some m => obtain ⟨q, _, rfl⟩ := h; rfl
    | selectJob => rw [h.2]
    | selectStale => rw [h.2]
    | llen => rw [h.2]
    | get => rw [h.2]
    | hincrby => rw [h.2]; rfl
    | _ => rw [show w' = _ from h]; try rfl

/-- **All that a call can do to the queue.** -/
inductive QueueChange (w w' : World) : (o : Op) → Except PyExc (Ans o) → Prop where
  | same {o : Op} {r : Except PyExc (Ans o)} (h : w'.queue = w.queue) : QueueChange w w' o r
  | pushed {m : Str} (h : w'.queue = m :: w.queue) : QueueChange w w' (.lpush m) (.ok ())
  | popped {m : Str} (h : w.queue = w'.queue ++ [m]) : QueueChange w w' .brpop (.ok (some m))

theorem queueChange_of_sem {w w' : World} {o : Op} {r : Except PyExc (Ans o)} (h : Sem w o r w') :
    QueueChange w w' o r := by
  cases r with
  | error e => exact .same (by rw [show w' = w from h])
  | ok a =>
    cases o with
    | lpush m => exact .pushed (by rw [show w' = _ from h])
    | brpop =>
      cases a with
      | none => exact .same (by rw [h.2])
      | some m => obtain ⟨q, hq, rfl⟩ := h; exact .popped hq
    | insertJob => obtain ⟨t, _, rfl⟩ := h; exact .same rfl
    | updateJob => obtain ⟨t, _, rfl⟩ := h; exact .same rfl
    | touchJob => obtain ⟨t, _, rfl⟩ := h; exact .same rfl
    | deleteOld => obtain ⟨_, rfl⟩ := h; exact .same rfl
    | selectJob => exact .same (by rw [h.2])
    | selectStale => exact .same (by rw [h.2])
    | llen => exact .same (by rw [h.2])
    | get => exact .same (by rw [h.2])
    | hincrby => exact .same (by rw [h.2]; rfl)
    | setex => exact .same (by rw [show w' = _ from h])
    | expire => exact .same (by rw [show w' = _ from h]; rfl)
    | request => exact .same (by rw [show w' = w from h])
    | infer => exact .same (by rw [show w' = w from h])
    | acquire => exact .same (by rw [show w' = w from h])
    | generateContent => exact .same (by rw [show w' = w from h])
    | sleep => exact .same (by rw [show w' = w from h])

/-- **All that a call can do to a counter**, and to the key it lives in. -/
inductive CounterChange (w w' : World) (key field : Str) :
    (o : Op) → Except PyExc (Ans o) → Prop where
  | same {o : Op} {r : Except PyExc (Ans o)} (h : w'.counter key field = w.counter key field)
      (hk : (w.hashes key).isSome = true → (w'.hashes key).isSome = true)
      (ho : ∀ a, r = .ok a → o ≠ .hincrby key field) : CounterChange w w' key field o r
  | bumped (h : w'.counter key field = w.counter key field + 1)
      (hk : (w'.hashes key).isSome = true) :
      CounterChange w w' key field (.hincrby key field) (.ok (w.counter key field + 1))

theorem counter_bump (w : World) (key field : Str) :
    (w.bump key field).counter key field = w.counter key field + 1 := by
  simp [World.bump, World.counter]

theorem counter_bump_other {w : World} {key field key' field' : Str}
    (h : ¬ (key' = key ∧ field' = field)) :
    (w.bump key' field').counter key field = w.counter key field := by
  simp only [World.bump, World.counter]
  by_cases hk : key = key'
  · subst hk
    have hf : field ≠ field' := fun e => h ⟨rfl, e.symm⟩
    rw [if_pos rfl]
    cases w.hashes key <;> simp [hf]
  · rw [if_neg hk]

theorem counter_setExpiry (w : World) (key field key' : Str) :
    (w.setExpiry key').counter key field = w.counter key field := by
  simp only [World.setExpiry, World.counter]
  by_cases hk : key = key'
  · subst hk
    rw [if_pos rfl]
    cases w.hashes key <;> rfl
  · rw [if_neg hk]

theorem isSome_bump {w : World} {key key' field' : Str} (h : (w.hashes key).isSome = true) :
    ((w.bump key' field').hashes key).isSome = true := by
  simp only [World.bump]
  split
  · rfl
  · exact h

theorem isSome_setExpiry {w : World} {key key' : Str} (h : (w.hashes key).isSome = true) :
    ((w.setExpiry key').hashes key).isSome = true := by
  simp only [World.setExpiry]
  split
  · next hk => rw [Option.isSome_map, ← hk, h]
  · exact h

/-- A call that leaves the hashes alone leaves the counter alone. -/
theorem counterChange_of_hashes {w w' : World} {key field : Str} {o : Op}
    {r : Except PyExc (Ans o)} (h : w'.hashes = w.hashes)
    (ho : ∀ a, r = .ok a → o ≠ .hincrby key field) : CounterChange w w' key field o r :=
  .same (by simp only [World.counter, h]) (by simp only [h]; exact id) ho

theorem counterChange_of_sem {w w' : World} {o : Op} {r : Except PyExc (Ans o)} (h : Sem w o r w')
    (key field : Str) : CounterChange w w' key field o r := by
  cases r with
  | error e => exact counterChange_of_hashes (by rw [show w' = w from h]) nofun
  | ok a =>
    cases o with
    | hincrby key' field' =>
      obtain ⟨rfl, rfl⟩ := h
      by_cases hk : key' = key ∧ field' = field
      · obtain ⟨rfl, rfl⟩ := hk
        exact .bumped (counter_bump w _ _) (by simp [World.bump])
      · exact .same (counter_bump_other hk) isSome_bump fun _ _ he => hk (by cases he; exact ⟨rfl, rfl⟩)
    | expire key' n =>
      rw [show w' = _ from h]
      exact .same (counter_setExpiry w key field key') isSome_setExpiry nofun
    | insertJob => obtain ⟨t, _, rfl⟩ := h; exact counterChange_of_hashes rfl nofun
    | updateJob => obtain ⟨t, _, rfl⟩ := h; exact counterChange_of_hashes rfl nofun
    | touchJob => obtain ⟨t, _, rfl⟩ := h; exact counterChange_of_hashes rfl nofun
    | deleteOld => obtain ⟨_, rfl⟩ := h; exact counterChange_of_hashes rfl nofun
    | brpop =>
      cases a with
      | none => exact counterChange_of_hashes (by rw [h.2]) nofun
      | some m => obtain ⟨q, _, rfl⟩ := h; exact counterChange_of_hashes rfl nofun
    | selectJob => exact counterChange_of_hashes (by rw [h.2]) nofun
    | selectStale => exact counterChange_of_hashes (by rw [h.2]) nofun
    | llen => exact counterChange_of_hashes (by rw [h.2]) nofun
    | get => exact counterChange_of_hashes (by rw [h.2]) nofun
    | lpush => exact counterChange_of_hashes (by rw [show w' = _ from h]) nofun
    | setex => exact counterChange_of_hashes (by rw [show w' = _ from h]) nofun
    | request => exact counterChange_of_hashes (by rw [show w' = w from h]) nofun
    | infer => exact counterChange_of_hashes (by rw [show w' = w from h]) nofun
    | acquire => exact counterChange_of_hashes (by rw [show w' = w from h]) nofun
    | generateContent => exact counterChange_of_hashes (by rw [show w' = w from h]) nofun
    | sleep => exact counterChange_of_hashes (by rw [show w' = w from h]) nofun

/-- **All that a call can do to the texts under keys.** -/
inductive StringsChange (w w' : World) : (o : Op) → Except PyExc (Ans o) → Prop where
  | same {o : Op} {r : Except PyExc (Ans o)} (h : w'.strings = w.strings) : StringsChange w w' o r
  | stored {key value : Str} {seconds : Nat}
      (h : w'.strings = fun k => if k = key then some value else w.strings k) :
      StringsChange w w' (.setex key seconds value) (.ok ())

theorem stringsChange_of_sem {w w' : World} {o : Op} {r : Except PyExc (Ans o)}
    (h : Sem w o r w') : StringsChange w w' o r := by
  cases r with
  | error e => exact .same (by rw [show w' = w from h])
  | ok a =>
    cases o with
    | setex key seconds value => exact .stored (by rw [show w' = _ from h])
    | insertJob => obtain ⟨t, _, rfl⟩ := h; exact .same rfl
    | updateJob => obtain ⟨t, _, rfl⟩ := h; exact .same rfl
    | touchJob => obtain ⟨t, _, rfl⟩ := h; exact .same rfl
    | deleteOld => obtain ⟨_, rfl⟩ := h; exact .same rfl
    | brpop =>
      cases a with
      | none => exact .same (by rw [h.2])
      | some m => obtain ⟨q, _, rfl⟩ := h; exact .same rfl
    | selectJob => exact .same (by rw [h.2])
    | selectStale => exact .same (by rw [h.2])
    | llen => exact .same (by rw [h.2])
    | get => exact .same (by rw [h.2])
    | hincrby => exact .same (by rw [h.2]; rfl)
    | _ => exact .same (by rw [show w' = _ from h]; try rfl)

/-- A text stays as it is by itself, or expires. -/
theorem strings_of_drift {w w' : World} (h : Drift w w') (key : Str) :
    w'.strings key = w.strings key ∨ w'.strings key = none := by
  cases h with
  | tick d => exact Or.inl rfl
  | expireHash key' => exact Or.inl rfl
  | expireString key' =>
    by_cases hk : key = key'
    · exact Or.inr (if_pos hk)
    · exact Or.inl (if_neg hk)

/-- A hash stays as it is by itself, or expires. -/
theorem hashes_of_drift {w w' : World} (h : Drift w w') (key : Str) :
    w'.hashes key = w.hashes key ∨ (w'.hashes key = none ∧ (w.hashes key).isSome = true) := by
  cases h with
  | tick d => exact Or.inl rfl
  | expireString key' => exact Or.inl rfl
  | expireHash key' hk =>
    show (if key = key' then none else w.hashes key) = _ ∨ _
    by_cases he : key = key'
    · subst he
      exact Or.inr ⟨if_pos rfl, by rw [hk]; rfl⟩
    · exact Or.inl (if_neg he)

theorem queue_of_drift {w w' : World} (h : Drift w w') : w'.queue = w.queue := by
  cases h <;> rfl

/-- The clock does not go back. -/
theorem now_of_drift {w w' : World} (h : Drift w w') : w.now ≤ w'.now := by
  cases h with
  | tick d => exact Nat.le_add_right _ _
  | expireString key => exact Nat.le_refl _
  | expireHash key hk he => exact Nat.le_refl _

/-- Nothing that happens by itself touches a row. -/
theorem jobs_of_drift {w w' : World} (h : Drift w w') : w'.jobs = w.jobs := by
  cases h <;> rfl

end InvoiceOcr
