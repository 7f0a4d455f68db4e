/-
  File:      InvoiceOcr/Refresh.lean
  Subject:   THE RATE LIMIT AS IT IS READ FROM REDIS (src/worker/rate_refresh.py, the method
             `read_rate_limit_config` of src/storage/redis_client.py): what the hash may hold, and what
             becomes of the bucket.

  * `readRateLimitConfig`, `refreshPass` -- a pass of `rate_refresh_loop`: all of the answer or nothing;
  * `LiveBucket` -- the bucket with the rates `float` can read, infinities and NaN included. Floats are
    exact but for their range: what goes beyond it is an infinity, and an int beyond it raises;
  * **`live_window`** -- RUN: while the readable rates and bursts are numbers from 0 on, in range, and no
    rate is raised, the window law holds of whatever Redis answers;
  * **`limit_lost`** -- a rate of NaN or infinity grants every call, or raises;
  * **`stays_empty`** -- RUN: a call under minus infinity, and the process is granted nothing any more.
-/
import InvoiceOcr.Domain
import InvoiceOcr.Rate.Special
import InvoiceOcr.Text.Float
import InvoiceOcr.Experiment
import InvoiceOcr.Reconfigure

namespace InvoiceOcr

open PyJson PyText Async Rate

/-! ## 1. What is read -/

/-- `settings.TOKEN_BUCKET_RPS` and `settings.TOKEN_BUCKET_BURST`. -/
structure RateLimitConfig where
  rps : PyFloat
  burst : Int

/-- What `HGETALL` returns: the fields of a hash, in its order. -/
abbrev HashFields := List (Str × Str)

/-- `int(text)`, `repr` that of a text. -/
def readInt (repr : Str → Str) (text : Str) : Except PyExc Int :=
  if maxStrDigits < text.countP isDecimal then
    .error (.valueError "Exceeds the limit (4300 digits) for integer string conversion".toList)
  else
    match Experiment.parseInt text with
    | some n => .ok n
    | none =>
      .error (.valueError ("invalid literal for int() with base 10: ".toList ++ repr text))

/-- `float(text)`. -/
def floatOf (repr : Str → Str) (text : Str) : Except PyExc PyFloat :=
  match parseFloat text with
  | some x => .ok x
  | none => .error (.valueError ("could not convert string to float: ".toList ++ repr text))

/-- `read_rate_limit_config`, on what `HGETALL` answers. -/
def readRateLimitConfig (repr : Str → Str) (settings : RateLimitConfig) :
    Except PyExc HashFields → Except PyExc RateLimitConfig
  | .error e =>
    .error (if e.isRedisError then
      .storageTransient ("redis hgetall rate_limit failed: ".toList ++ e.str) else e)
  | .ok [] => .ok settings
  | .ok (kv :: rest) => do
    let cfg := kv :: rest
    let rps ← match cfg.lookup "rps".toList with
      | some text => floatOf repr text
      | none => .ok settings.rps
    let burst ← match cfg.lookup "burst".toList with
      | some text => readInt repr text
      | none => .ok settings.burst
    return ⟨rps, burst⟩

/-! ## 2. The bucket -/

/-- `TokenBucket`, whatever its rate. A number in `tokens` that is out of range is an int: no float
    has its value. -/
structure LiveBucket (K : Type*) where
  rate : Special K
  capacity : Int
  tokens : Special K
  last : K

/-- What a process does with its bucket. -/
inductive BucketEvent where
  | acquire
  | refresh (answer : Except PyExc HashFields)

/-- The `OverflowError` of an int that no float can hold. -/
def intTooLarge : PyExc := .exception "int too large to convert to float".toList

/-- The call returned true. -/
def wasGranted : Except PyExc Bool → Bool
  | .ok granted => granted
  | .error _ => false

section Bucket

variable {K : Type*} [Field K]

/-- The value of a float. -/
def valueOfFloat : PyFloat → Special K
  | .nan => .nan
  | .inf neg => .inf neg
  | .fin neg m e => .fin ((if neg then -1 else 1) * ((m : K) * (10 : K) ^ e))

namespace LiveBucket

/-- `TokenBucket(rate_per_second, burst)`, where `float(burst)` goes through. -/
def init (config : RateLimitConfig) (now : K) : LiveBucket K where
  rate := valueOfFloat config.rps
  capacity := config.burst
  tokens := .fin config.burst
  last := now

variable [LinearOrder K]

/-- A number as an operand of float arithmetic. -/
def asFloat : Special K → Except PyExc (Special K)
  | .fin x => if |x| < (overflow : K) then .ok (.fin x) else .error intTooLarge
  | x => .ok x

variable (bucket : LiveBucket K) (now : K)

/-- `elapsed * self._rate`. -/
def credit : Special K := ((Special.fin (now - bucket.last)).mul bucket.rate).toRange (overflow : K)

/-- The balance `acquire` looks at. -/
def refilled : Except PyExc (Special K) := do
  let tokens ← asFloat bucket.tokens
  return Special.least (.fin bucket.capacity) ((tokens.add (bucket.credit now)).toRange (overflow : K))

/-- `acquire()`: whether it grants, or the error it raises; `_last` is set first. -/
def acquire : Except PyExc Bool × LiveBucket K :=
  let bucket' := { bucket with last := now }
  match bucket.refilled now with
  | .error e => (.error e, bucket')
  | .ok tokens =>
    if (Special.fin 1).AtMost tokens then
      match asFloat tokens with
      | .error e => (.error e, { bucket' with tokens })
      | .ok x => (.ok true, { bucket' with tokens := x.add (.fin (-1)) })
    else (.ok false, { bucket' with tokens })

/-- `update_config()`, and whether it returns: `float(burst)` comes last. -/
def updateConfig (config : RateLimitConfig) : Bool × LiveBucket K :=
  let bucket := { bucket with rate := valueOfFloat config.rps, capacity := config.burst }
  if config.burst.natAbs < overflow then
    (true, { bucket with tokens := Special.least bucket.tokens (.fin config.burst) })
  else (false, bucket)

/-- A pass of `rate_refresh_loop`, and the outcome it counts. -/
def refreshPass (repr : Str → Str) (settings : RateLimitConfig) (answer : Except PyExc HashFields) :
    Bool × LiveBucket K :=
  match readRateLimitConfig repr settings answer with
  | .ok config => bucket.updateConfig config
  | .error _ => (false, bucket)

/-- An event at time `now`: whether it is a grant, and the bucket after it. -/
def event (repr : Str → Str) (settings : RateLimitConfig) : BucketEvent → Bool × LiveBucket K
  | .acquire => (wasGranted (bucket.acquire now).1, (bucket.acquire now).2)
  | .refresh answer => (false, (bucket.refreshPass repr settings answer).2)

/-- The bucket after a run. -/
def after (repr : Str → Str) (settings : RateLimitConfig) (bucket : LiveBucket K) :
    List (K × BucketEvent) → LiveBucket K
  | [] => bucket
  | (now, x) :: rest => after repr settings (bucket.event now repr settings x).2 rest

/-- The grants of a run at times within `[s, e]`. -/
def grantsIn (repr : Str → Str) (settings : RateLimitConfig) (s e : K) (bucket : LiveBucket K) :
    List (K × BucketEvent) → Nat
  | [] => 0
  | (now, x) :: rest =>
    (if s ≤ now ∧ now ≤ e ∧ (bucket.event now repr settings x).1 then 1 else 0) +
      grantsIn repr settings s e (bucket.event now repr settings x).2 rest

end LiveBucket

end Bucket

/-! ## 3. The exact bucket -/

/-- The float is a number that is not negative. -/
def isRate : PyFloat → Bool
  | .fin neg m _ => !neg || m == 0
  | _ => false

/-- A configuration the exact bucket can have. -/
def RateLimitConfig.Plain (config : RateLimitConfig) : Prop :=
  isRate config.rps = true ∧ 0 ≤ config.burst ∧ config.burst.natAbs < overflow

section Exact

variable {K : Type*} [Field K]

/-- The rate of a configuration, a number. -/
def RateLimitConfig.rate (config : RateLimitConfig) : K :=
  match config.rps with
  | .fin neg m e => (if neg then -1 else 1) * ((m : K) * (10 : K) ^ e)
  | _ => 0

/-- The exact bucket, as a bucket of any rate. -/
def TokenBucket.live (t : TokenBucket K) : LiveBucket K where
  rate := .fin t.rate
  capacity := t.capacity
  tokens := .fin t.tokens
  last := t.last

/-- What an event is to the exact bucket; an answer that cannot be read is nothing. -/
def BucketEvent.exact (repr : Str → Str) (settings : RateLimitConfig) : BucketEvent → Option (BucketCall K)
  | .acquire => some .acquire
  | .refresh answer =>
    match readRateLimitConfig repr settings answer with
    | .ok config => some (.updateConfig config.rate config.burst.toNat)
    | .error _ => none

/-- The run of the exact bucket. -/
def exactCalls (repr : Str → Str) (settings : RateLimitConfig) (events : List (K × BucketEvent)) :
    List (K × BucketCall K) :=
  events.filterMap fun x => (x.2.exact repr settings).map fun c => (x.1, c)

/-- All that is read off Redis in a run can be had by the exact bucket. -/
def PlainRun (repr : Str → Str) (settings : RateLimitConfig) (events : List (K × BucketEvent)) : Prop :=
  ∀ now answer config, (now, .refresh answer) ∈ events →
    readRateLimitConfig repr settings answer = .ok config → config.Plain

/-- The events come in the order of the clock, none before `since`. -/
def Timed [LinearOrder K] (since : K) (events : List (K × BucketEvent)) : Prop :=
  (since :: events.map Prod.fst).Pairwise (· ≤ ·)

variable {repr : Str → Str} {settings config : RateLimitConfig} {events : List (K × BucketEvent)}

theorem RateLimitConfig.Plain.burst_cast (h : config.Plain) :
    (config.burst.toNat : K) = (config.burst : K) := by
  rw [← Int.cast_natCast, Int.toNat_of_nonneg h.2.1]

theorem RateLimitConfig.Plain.burst_small (h : config.Plain) : config.burst.toNat < overflow := by
  have hnat : config.burst.toNat = config.burst.natAbs := by
    have hpos := h.2.1
    generalize config.burst = burst at hpos
    omega
  rw [hnat]
  exact h.2.2

theorem RateLimitConfig.Plain.value (h : config.Plain) : valueOfFloat config.rps = .fin (config.rate : K) := by
  obtain ⟨rps, burst⟩ := config
  have hrps : isRate rps = true := h.1
  cases rps with
  | fin neg m e => rfl
  | inf neg => cases hrps
  | nan => cases hrps

variable [LinearOrder K] {t : TokenBucket K} {now s e start : K}

theorem RateLimitConfig.Plain.rate_nonneg [IsStrictOrderedRing K] (h : config.Plain) :
    0 ≤ (config.rate : K) := by
  obtain ⟨rps, burst⟩ := config
  have hrps : isRate rps = true := h.1
  cases rps with
  | fin neg m e =>
    have hvalue : 0 ≤ (m : K) * (10 : K) ^ e :=
      mul_nonneg (Nat.cast_nonneg m) (zpow_nonneg (by norm_num) e)
    cases neg with
    | false => simpa [RateLimitConfig.rate] using hvalue
    | true =>
      have hm : m = 0 := by simpa [isRate] using hrps
      simp [RateLimitConfig.rate, hm]
  | inf neg => cases hrps
  | nan => cases hrps

/-- What keeps the exact bucket in the range of floats. -/
structure TokenBucket.InRange (t : TokenBucket K) (now : K) : Prop extends TokenBucket.Sound t now where
  full : t.tokens ≤ (t.capacity : K)
  small : t.capacity < overflow

namespace TokenBucket.InRange

variable [IsStrictOrderedRing K] {since : K} {c : BucketCall K}

omit [IsStrictOrderedRing K] in
theorem later (h : t.InRange since) (hnow : since ≤ now) : t.InRange now :=
  { h with last := le_trans h.last hnow }

/-- STEP: a call leaves the bucket in range, as long as a new burst is in it. -/
theorem call (h : t.InRange since) (hnow : since ≤ now) (hrate : 0 ≤ c.rateAfter t.rate)
    (hburst : c.burstAfter t.capacity < overflow) : (t.call now c).2.InRange now := by
  refine { h.toSound.call hnow hrate with full := ?_, small := by rwa [call_capacity] }
  cases c with
  | acquire =>
    have hfull := acquire_le_capacity t now
    rw [call_acquire, acquire_capacity]
    refine le_trans ?_ hfull
    by_cases hgranted : (t.acquire now).1 <;> simp [hgranted]
  | updateConfig ratePerSecond burst => exact min_le_right _ _

/-- A number from 0 on, at most the capacity, is a float. -/
theorem asFloat_eq (h : t.InRange since) {x : K} (hx : 0 ≤ x) (hcap : x ≤ t.capacity) :
    LiveBucket.asFloat (.fin x) = .ok (.fin x) := by
  have hrange : |x| < (overflow : K) := by
    rw [abs_of_nonneg hx]
    exact lt_of_le_of_lt hcap (Nat.cast_lt.mpr h.small)
  exact if_pos hrange

/-- The balance a call looks at is the exact one, whether the credit overflows or not. -/
theorem refilled_eq (h : t.InRange since) (hnow : since ≤ now) :
    t.live.refilled now = .ok (.fin (t.refilled now)) := by
  have hcredit : 0 ≤ (now - t.last) * t.rate :=
    mul_nonneg (sub_nonneg.mpr (le_trans h.last hnow)) h.rate
  have hsum := Special.least_sum (Nat.cast_lt.mpr h.small) h.tokens hcredit
  unfold LiveBucket.refilled TokenBucket.live LiveBucket.credit TokenBucket.refilled
  dsimp only
  rw [h.asFloat_eq h.tokens h.full, Int.cast_natCast]
  exact congrArg Except.ok hsum

end TokenBucket.InRange

section Run

variable [IsStrictOrderedRing K] {since : K}

/-- STEP: a call of `acquire` is the exact one. -/
theorem live_acquire (h : t.InRange since) (hnow : since ≤ now) :
    t.live.acquire now = (.ok (t.acquire now).1, (t.acquire now).2.live) := by
  unfold LiveBucket.acquire TokenBucket.acquire
  rw [h.refilled_eq hnow]
  by_cases hroom : 1 ≤ t.refilled now
  · have hfloat := h.asFloat_eq (h.toSound.refilled_nonneg hnow) (min_le_left _ _)
    simp only [if_pos (show (Special.fin 1).AtMost (.fin (t.refilled now)) from hroom), if_pos hroom]
    rw [hfloat]
    simp [TokenBucket.live, sub_eq_add_neg]
  · simp only [if_neg (show ¬ (Special.fin 1).AtMost (.fin (t.refilled now)) from hroom), if_neg hroom]
    rfl

omit [IsStrictOrderedRing K] in
/-- STEP: so is an update to a plain configuration. -/
theorem live_update (h : config.Plain) :
    t.live.updateConfig config = (true, (t.updateConfig config.rate config.burst.toNat).live) := by
  unfold LiveBucket.updateConfig
  rw [if_pos h.2.2, h.value]
  simp [TokenBucket.live, TokenBucket.updateConfig, h.burst_cast, Int.toNat_of_nonneg h.2.1]

/-- STEP: an event is what it is to the exact bucket, which it leaves in range, or nothing. -/
theorem live_event {x : BucketEvent} (h : t.InRange since) (hnow : since ≤ now)
    (hplain : ∀ answer config, x = .refresh answer →
      readRateLimitConfig repr settings answer = .ok config → config.Plain) :
    match x.exact repr settings with
    | some c => t.live.event now repr settings x = ((t.call now c).1, (t.call now c).2.live) ∧
        (t.call now c).2.InRange now
    | none => t.live.event now repr settings x = (false, t.live) := by
  cases x with
  | acquire =>
    refine ⟨?_, h.call hnow h.rate h.small⟩
    simp only [LiveBucket.event, live_acquire h hnow]
    rfl
  | refresh answer =>
    simp only [LiveBucket.event, LiveBucket.refreshPass, BucketEvent.exact]
    cases hread : readRateLimitConfig repr settings answer with
    | error e => rfl
    | ok config =>
      have hconfig : config.Plain := hplain answer config rfl hread
      dsimp only
      rw [live_update hconfig]
      exact ⟨rfl, h.call hnow hconfig.rate_nonneg hconfig.burst_small⟩

/-- RUN: the grants of the bucket are the grants of the exact one. -/
theorem live_run (h : t.InRange since) (hordered : Timed since events)
    (hplain : PlainRun repr settings events) :
    LiveBucket.grantsIn repr settings s e t.live events =
      TokenBucket.grantsIn s e t (exactCalls repr settings events) := by
  induction events generalizing t since with
  | nil => rfl
  | cons x rest ih =>
    obtain ⟨now, x⟩ := x
    have hnow : since ≤ now := (List.pairwise_cons.mp hordered).1 now List.mem_cons_self
    have htail : Timed now rest := (List.pairwise_cons.mp hordered).2
    have hrest : PlainRun repr settings rest := fun now answer config hmem =>
      hplain now answer config (List.mem_cons_of_mem _ hmem)
    have hevent := live_event (x := x) h hnow fun answer config hx =>
      hplain now answer config (hx ▸ List.mem_cons_self)
    unfold exactCalls at ih ⊢
    rw [List.filterMap_cons, LiveBucket.grantsIn]
    cases hexact : (x.exact repr settings : Option (BucketCall K)) with
    | none =>
      rw [hexact] at hevent
      rw [hevent]
      simpa using ih (h.later hnow) htail hrest
    | some c =>
      rw [hexact] at hevent
      rw [hevent.1]
      simp only [Option.map_some, TokenBucket.grantsIn]
      rw [ih hevent.2 htail hrest]

end Run

theorem ordered_exactCalls (h : Timed start events) :
    TokenBucket.Ordered start (exactCalls repr settings events) := by
  refine List.Pairwise.sublist (List.Sublist.cons_cons start ?_) h
  unfold exactCalls
  induction events with
  | nil => exact .slnil
  | cons x rest ih =>
    have hrest : Timed start rest := h.sublist (List.Sublist.cons_cons start (List.sublist_cons_self _ _))
    rw [List.filterMap_cons]
    cases (x.2.exact repr settings : Option (BucketCall K)) with
    | none => exact (ih hrest).cons _
    | some c => exact (ih hrest).cons_cons _

theorem ratesNonneg_exactCalls [IsStrictOrderedRing K] (hplain : PlainRun repr settings events) :
    TokenBucket.RatesNonneg (exactCalls repr settings events) := by
  intro now rate burst hmem
  obtain ⟨⟨at', x⟩, hx, hcall⟩ := List.mem_filterMap.mp hmem
  cases x with
  | acquire => simp [BucketEvent.exact] at hcall
  | refresh answer =>
    simp only [BucketEvent.exact] at hcall
    cases hread : readRateLimitConfig repr settings answer with
    | error e => simp [hread] at hcall
    | ok config =>
      simp only [hread, Option.map_some, Option.some.injEq, Prod.mk.injEq,
        BucketCall.updateConfig.injEq] at hcall
      rw [← hcall.2.1]
      exact (hplain at' answer config hx hread).rate_nonneg

omit [LinearOrder K] in
theorem init_live (h : settings.Plain) :
    LiveBucket.init settings start = (TokenBucket.init settings.rate settings.burst.toNat start).live := by
  simp [LiveBucket.init, TokenBucket.init, TokenBucket.live, h.value, h.burst_cast,
    Int.toNat_of_nonneg h.2.1]

/-- **The window law of what is read from Redis**, in exact arithmetic: whatever is answered in between
    that cannot be read, and however often Redis fails, a window sees no more grants than the largest
    burst in force in it and what the rates in force earn, as long as rates and bursts are from 0 on,
    the bursts have floats, and no rate is raised. -/
theorem live_window [IsStrictOrderedRing K] (hsettings : settings.Plain)
    (hplain : PlainRun repr settings events) (hordered : Timed start events)
    (hraised : TokenBucket.NotRaised settings.rate (exactCalls repr settings events)) (s e : K) :
    (LiveBucket.grantsIn repr settings s e (LiveBucket.init settings start) events : K) ≤
      Rate.ceiling s e (TokenBucket.inForce e settings.rate settings.burst.toNat start
        (exactCalls repr settings events)) +
      Rate.earned s e (TokenBucket.inForce e settings.rate settings.burst.toNat start
        (exactCalls repr settings events)) := by
  have hrange : TokenBucket.InRange
      (TokenBucket.init (settings.rate : K) settings.burst.toNat start) start :=
    { tokens := Nat.cast_nonneg _
      rate := hsettings.rate_nonneg
      last := le_refl start
      full := le_refl _
      small := hsettings.burst_small }
  have hcalls : TokenBucket.Ordered start (exactCalls repr settings events) := ordered_exactCalls hordered
  have hearned : (start - start) * (settings.rate : K) ≤ 0 := by rw [sub_self, zero_mul]
  have hcredits : TokenBucket.CreditsEarned (TokenBucket.init settings.rate settings.burst.toNat start)
      start 0 (exactCalls repr settings events) :=
    TokenBucket.creditsEarned_of_not_raised (le_refl start) hearned hcalls hraised
  rw [init_live hsettings, live_run hrange hordered hplain]
  exact TokenBucket.grantsIn_le_ceiling hrange.toSound hcalls (ratesNonneg_exactCalls hplain) hcredits

end Exact

namespace Sample

/-- The settings of the source. -/
def rateLimit : RateLimitConfig := ⟨.fin false 4 0, 8⟩

def quoted (text : Str) : Str := Char.ofNat 39 :: text ++ [Char.ofNat 39]

/-- `HSET rate_limit_config rps …`. -/
def rpsHash (rps : Str) : HashFields := [("rps".toList, rps)]

def two : Str := "2".toList
def fast : Str := "fast".toList

/-- A call, the rate halved, a rate that is no number, another call. -/
def lowered : List (ℚ × BucketEvent) :=
  [(0, .acquire), (30, .refresh (.ok (rpsHash two))), (60, .refresh (.ok (rpsHash fast))),
    (61, .acquire)]

theorem read_rps {text : Str} {x : PyFloat} (h : parseFloat text = some x) :
    readRateLimitConfig quoted rateLimit (.ok (rpsHash text)) = .ok ⟨x, 8⟩ := by
  have hrps : ("rps".toList == "rps".toList) = true := by decide
  have hburst : ("burst".toList == "rps".toList) = false := by decide
  simp only [readRateLimitConfig, rpsHash, List.lookup_cons, List.lookup_nil, hrps, hburst, floatOf, h]
  rfl

theorem read_two : readRateLimitConfig quoted rateLimit (.ok (rpsHash two)) =
    .ok ⟨.fin false 2 0, 8⟩ := read_rps (by decide +kernel)

/-- What `float` cannot read is an error. -/
theorem read_fast : readRateLimitConfig quoted rateLimit (.ok (rpsHash fast)) =
    .error (.valueError ("could not convert string to float: ".toList ++ quoted fast)) := by
  have hfast : parseFloat fast = none := by decide +kernel
  have hrps : ("rps".toList == "rps".toList) = true := by decide
  simp only [readRateLimitConfig, rpsHash, List.lookup_cons, hrps, floatOf, hfast]
  rfl

theorem exact_lowered : exactCalls quoted rateLimit lowered =
    [((0 : ℚ), .acquire), (30, .updateConfig 2 8), (61, .acquire)] := by
  simp [exactCalls, lowered, BucketEvent.exact, read_two, read_fast, RateLimitConfig.rate]

theorem plain_lowered : PlainRun quoted rateLimit lowered := by
  intro now answer config hmem hread
  simp only [lowered, List.mem_cons, Prod.mk.injEq, BucketEvent.refresh.injEq, reduceCtorEq,
    and_false, false_or, List.not_mem_nil, or_false] at hmem
  rcases hmem with ⟨_, rfl⟩ | ⟨_, rfl⟩
  · rw [read_two] at hread
    cases hread
    exact ⟨by decide, by decide, by decide +kernel⟩
  · rw [read_fast] at hread
    cases hread

theorem timed_lowered : Timed 0 lowered := by
  unfold Timed
  decide +kernel

end Sample

theorem live_window_lowered :
    (LiveBucket.grantsIn Sample.quoted Sample.rateLimit 0 61 (LiveBucket.init Sample.rateLimit 0)
      Sample.lowered : ℚ) ≤
    Rate.ceiling 0 61 (TokenBucket.inForce 61 Sample.rateLimit.rate 8 0
      (exactCalls Sample.quoted Sample.rateLimit Sample.lowered)) +
    Rate.earned 0 61 (TokenBucket.inForce 61 Sample.rateLimit.rate 8 0
      (exactCalls Sample.quoted Sample.rateLimit Sample.lowered)) := by
  have hsettings : Sample.rateLimit.Plain := ⟨by decide, by decide, by decide +kernel⟩
  have hraised : TokenBucket.NotRaised (Sample.rateLimit.rate : ℚ)
      (exactCalls Sample.quoted Sample.rateLimit Sample.lowered) := by
    rw [Sample.exact_lowered]
    norm_num [TokenBucket.NotRaised, BucketCall.rateAfter, RateLimitConfig.rate, Sample.rateLimit]
  exact live_window hsettings Sample.plain_lowered Sample.timed_lowered hraised 0 61

/-! ## 4. Rates that are no numbers -/

/-- The configuration in force after an event. -/
def BucketEvent.configAfter (repr : Str → Str) (settings config : RateLimitConfig) :
    BucketEvent → RateLimitConfig
  | .acquire => config
  | .refresh answer =>
    match readRateLimitConfig repr settings answer with
    | .ok config => config
    | .error _ => config

/-- The configuration in force after a run: the last that could be read. -/
def lastConfig {K : Type*} (repr : Str → Str) (settings : RateLimitConfig)
    (events : List (K × BucketEvent)) : RateLimitConfig :=
  events.foldl (fun config x => x.2.configAfter repr settings config) settings

namespace Sample

def unlimited : List (ℚ × BucketEvent) := [(1, .refresh (.ok (rpsHash "nan".toList)))]

theorem read_nan : readRateLimitConfig quoted rateLimit (.ok (rpsHash "nan".toList)) = .ok ⟨.nan, 8⟩ :=
  read_rps (by decide +kernel)

def emptied : List (ℚ × BucketEvent) := [(1, .refresh (.ok (rpsHash "-inf".toList)))]

theorem read_minus : readRateLimitConfig quoted rateLimit (.ok (rpsHash "-inf".toList)) =
    .ok ⟨.inf true, 8⟩ := read_rps (by decide +kernel)

end Sample

namespace LiveBucket

variable {K : Type*} [Field K] [LinearOrder K] {repr : Str → Str} {settings config : RateLimitConfig}
  {bucket : LiveBucket K} {now since start : K} {x : BucketEvent} {events later : List (K × BucketEvent)}

/-- The bucket is set to the configuration. -/
def SetTo (config : RateLimitConfig) (bucket : LiveBucket K) : Prop :=
  bucket.rate = valueOfFloat config.rps ∧ bucket.capacity = config.burst

/-- What a call of `acquire` can do. -/
inductive Acquired (bucket : LiveBucket K) (now : K) : Except PyExc Bool × LiveBucket K → Prop
  | failed (h : bucket.refilled now = .error intTooLarge) :
      Acquired bucket now (.error intTooLarge, { bucket with last := now })
  | refused (x : Special K) (h : bucket.refilled now = .ok x) (hroom : ¬ (Special.fin 1).AtMost x) :
      Acquired bucket now (.ok false, { bucket with tokens := x, last := now })
  | overflowed (x : Special K) (h : bucket.refilled now = .ok x)
      (hfloat : asFloat x = .error intTooLarge) :
      Acquired bucket now (.error intTooLarge, { bucket with tokens := x, last := now })
  | granted (x : Special K) (h : bucket.refilled now = .ok x) (hroom : (Special.fin 1).AtMost x)
      (hfloat : asFloat x = .ok x) :
      Acquired bucket now (.ok true, { bucket with tokens := x.add (.fin (-1)), last := now })

/-- A number is its own float, or has none. -/
theorem asFloat_cases (x : Special K) : asFloat x = .ok x ∨ asFloat x = .error intTooLarge := by
  cases x with
  | fin x =>
    by_cases h : |x| < (overflow : K)
    · exact Or.inl (if_pos h)
    · exact Or.inr (if_neg h)
  | inf s => exact Or.inl rfl
  | nan => exact Or.inl rfl

theorem acquire_cases (bucket : LiveBucket K) (now : K) : Acquired bucket now (bucket.acquire now) := by
  unfold acquire
  cases hrefilled : bucket.refilled now with
  | error e =>
    have he : e = intTooLarge := by
      unfold refilled at hrefilled
      rcases asFloat_cases bucket.tokens with hfloat | hfloat
      · rw [hfloat] at hrefilled
        cases hrefilled
      · rw [hfloat] at hrefilled
        cases hrefilled
        rfl
    subst he
    exact .failed hrefilled
  | ok x =>
    dsimp only
    by_cases hroom : (Special.fin 1).AtMost x
    · rw [if_pos hroom]
      rcases asFloat_cases x with hfloat | hfloat
      · rw [hfloat]
        exact .granted x hrefilled hroom hfloat
      · rw [hfloat]
        exact .overflowed x hrefilled hfloat
    · rw [if_neg hroom]
      exact .refused x hrefilled hroom

theorem acquire_set (h : bucket.SetTo config) : (bucket.acquire now).2.SetTo config := by
  have hacquired := acquire_cases bucket now
  generalize bucket.acquire now = r at hacquired
  cases hacquired <;> exact h

theorem acquire_last : (bucket.acquire now).2.last = now := by
  have hacquired := acquire_cases bucket now
  generalize bucket.acquire now = r at hacquired
  cases hacquired <;> rfl

/-- An update sets the bucket, and may clamp its balance. -/
theorem updateConfig_cases (bucket : LiveBucket K) (config : RateLimitConfig) :
    ∃ tokens, (tokens = bucket.tokens ∨ tokens = Special.least bucket.tokens (.fin config.burst)) ∧
      (bucket.updateConfig config).2 =
        ⟨valueOfFloat config.rps, config.burst, tokens, bucket.last⟩ := by
  unfold updateConfig
  by_cases h : config.burst.natAbs < overflow
  · exact ⟨_, Or.inr rfl, by simp only [if_pos h]⟩
  · exact ⟨_, Or.inl rfl, by simp only [if_neg h]⟩

theorem updateConfig_set : (bucket.updateConfig config).2.SetTo config := by
  obtain ⟨tokens, _, hupdate⟩ := updateConfig_cases bucket config
  rw [hupdate]
  exact ⟨rfl, rfl⟩

theorem updateConfig_last : (bucket.updateConfig config).2.last = bucket.last := by
  obtain ⟨tokens, _, hupdate⟩ := updateConfig_cases bucket config
  rw [hupdate]

/-- STEP: an event sets the bucket to what it reads. -/
theorem event_set (h : bucket.SetTo config) :
    (bucket.event now repr settings x).2.SetTo (x.configAfter repr settings config) := by
  cases x with
  | acquire => exact acquire_set h
  | refresh answer =>
    simp only [event, refreshPass, BucketEvent.configAfter]
    cases readRateLimitConfig repr settings answer with
    | error e => exact h
    | ok config => exact updateConfig_set

/-- STEP: the last refill is not after the event. -/
theorem event_last (h : bucket.last ≤ since) (hnow : since ≤ now) :
    (bucket.event now repr settings x).2.last ≤ now := by
  cases x with
  | acquire => exact le_of_eq acquire_last
  | refresh answer =>
    simp only [event, refreshPass]
    cases readRateLimitConfig repr settings answer with
    | error e => exact le_trans h hnow
    | ok config => rw [updateConfig_last]; exact le_trans h hnow

/-- RUN: the configuration in force is the last that could be read. -/
theorem after_set (events : List (K × BucketEvent)) (h : bucket.SetTo config) :
    (bucket.after repr settings events).SetTo
      (events.foldl (fun config x => x.2.configAfter repr settings config) config) := by
  induction events generalizing bucket config with
  | nil => exact h
  | cons x rest ih => exact ih (event_set h)

/-- RUN: no refill is ahead of the clock. -/
theorem after_last (h : bucket.last ≤ since) (hordered : Timed since (events ++ [(now, x)])) :
    (bucket.after repr settings events).last ≤ now := by
  induction events generalizing bucket since with
  | nil =>
    have hnow : since ≤ now := (List.pairwise_cons.mp hordered).1 now List.mem_cons_self
    exact le_trans h hnow
  | cons y rest ih =>
    have hnow : since ≤ y.1 := (List.pairwise_cons.mp hordered).1 y.1 List.mem_cons_self
    exact ih (event_last h hnow) (List.pairwise_cons.mp hordered).2

theorem after_acquire : bucket.after repr settings [(now, .acquire)] = (bucket.acquire now).2 := rfl

theorem after_append (ys : List (K × BucketEvent)) :
    bucket.after repr settings (events ++ ys) =
      (bucket.after repr settings events).after repr settings ys := by
  induction events generalizing bucket with
  | nil => rfl
  | cons x rest ih => exact ih

/-- No burst that is read is so low that no float has its value. -/
def NoneTooLow (repr : Str → Str) (settings : RateLimitConfig) (events : List (K × BucketEvent)) : Prop :=
  ∀ now answer config, (now, .refresh answer) ∈ events →
    readRateLimitConfig repr settings answer = .ok config → -(overflow : Int) < config.burst

/-- What a bucket has at any time: minus infinity, or a number that is not too low and, under a
    capacity that is a float, not above it. -/
structure Held (bucket : LiveBucket K) : Prop where
  tokens : bucket.tokens = .inf true ∨ ∃ x, bucket.tokens = .fin x ∧ -(overflow : K) < x
  full : bucket.capacity < overflow → bucket.tokens.AtMost (.fin bucket.capacity)
  capacity : -(overflow : Int) < bucket.capacity

variable [IsStrictOrderedRing K]

theorem cast_lt_overflow {n : Int} : (n : K) < (overflow : K) ↔ n < overflow := by
  rw [← Int.cast_natCast, Int.cast_lt]

theorem neg_overflow_lt_cast {n : Int} : -(overflow : K) < (n : K) ↔ -(overflow : Int) < n := by
  rw [← Int.cast_natCast, ← Int.cast_neg, Int.cast_lt]

/-- A capacity that is a float. -/
theorem Held.asFloat_capacity (h : bucket.Held) (hsmall : bucket.capacity < overflow) :
    asFloat (Special.fin (bucket.capacity : K)) = .ok (.fin bucket.capacity) :=
  if_pos (abs_lt.mpr ⟨neg_overflow_lt_cast.mpr h.capacity, cast_lt_overflow.mpr hsmall⟩)

/-- The balance is one, then. -/
theorem Held.asFloat_tokens (h : bucket.Held) (hsmall : bucket.capacity < overflow) :
    asFloat bucket.tokens = .ok bucket.tokens := by
  have hfull := h.full hsmall
  rcases h.tokens with hminus | ⟨x, hx, hlow⟩
  · rw [hminus]
    rfl
  · rw [hx] at hfull ⊢
    have hhigh : x ≤ (bucket.capacity : K) := hfull
    exact if_pos (abs_lt.mpr ⟨hlow, lt_of_le_of_lt hhigh (cast_lt_overflow.mpr hsmall)⟩)

/-- What a call looks at can be held. -/
theorem Held.refilled (h : bucket.Held) {x : Special K} (hx : bucket.refilled now = .ok x) :
    ({ bucket with tokens := x, last := now } : LiveBucket K).Held := by
  unfold LiveBucket.refilled at hx
  cases hfloat : asFloat bucket.tokens with
  | error e =>
    rw [hfloat] at hx
    cases hx
  | ok tokens =>
    rw [hfloat] at hx
    cases hx
    exact ⟨Special.least_toRange (neg_overflow_lt_cast.mpr h.capacity) _, fun _ => Special.fin_least_atMost, h.capacity⟩

theorem acquire_held (h : bucket.Held) : (bucket.acquire now).2.Held := by
  have hacquired := acquire_cases bucket now
  generalize bucket.acquire now = r at hacquired
  cases hacquired with
  | failed hrefilled => exact ⟨h.tokens, h.full, h.capacity⟩
  | refused x hrefilled hroom => exact h.refilled hrefilled
  | overflowed x hrefilled hfloat => exact h.refilled hrefilled
  | granted x hrefilled hroom hfloat =>
    have hheld := h.refilled hrefilled
    rcases hheld.tokens with hminus | ⟨y, hy, hlow⟩
    · cases hminus
      cases hroom
    · cases hy
      have hone : (1 : K) ≤ y := hroom
      refine ⟨Or.inr ⟨y + -1, rfl, ?_⟩, fun hsmall => ?_, h.capacity⟩
      · have hzero : (0 : K) < overflow := Nat.cast_pos.mpr (by decide +kernel)
        linarith
      · have hfull : y ≤ (bucket.capacity : K) := hheld.full hsmall
        show y + -1 ≤ (bucket.capacity : K)
        linarith

/-- What is clamped to a burst. -/
theorem Held.clamped (h : bucket.Held) {n : Int} (hlow : -(overflow : Int) < n) :
    ({ bucket with capacity := n, tokens := Special.least bucket.tokens (.fin n) } : LiveBucket K).Held := by
  refine ⟨?_, fun _ => Special.least_atMost ?_, hlow⟩
  · dsimp only
    rcases h.tokens with hminus | ⟨x, hx, hxlow⟩
    · rw [hminus, Special.minus_least]
      exact Or.inl rfl
    · rw [hx, Special.least_fin_fin]
      exact Or.inr ⟨min x n, rfl, lt_min hxlow (neg_overflow_lt_cast.mpr hlow)⟩
  · rcases h.tokens with hminus | ⟨x, hx, _⟩
    · rw [hminus]
      exact nofun
    · rw [hx]
      exact nofun

theorem updateConfig_held (h : bucket.Held) (hlow : -(overflow : Int) < config.burst) :
    (bucket.updateConfig config).2.Held := by
  unfold updateConfig
  by_cases hsmall : config.burst.natAbs < overflow
  · simp only [if_pos hsmall]
    have hclamped := h.clamped hlow
    exact ⟨hclamped.tokens, hclamped.full, hlow⟩
  · simp only [if_neg hsmall]
    refine ⟨h.tokens, fun hburst => ?_, hlow⟩
    have habs : ∀ (n : Int) (k : Nat), -(k : Int) < n → n < k → n.natAbs < k := by omega
    exact absurd (habs _ _ hlow hburst) hsmall

/-- STEP: an event keeps to what a bucket can have. -/
theorem event_held (h : bucket.Held) (hlow : ∀ answer config, x = .refresh answer →
    readRateLimitConfig repr settings answer = .ok config → -(overflow : Int) < config.burst) :
    (bucket.event now repr settings x).2.Held := by
  cases x with
  | acquire => exact acquire_held h
  | refresh answer =>
    simp only [event, refreshPass]
    cases hread : readRateLimitConfig repr settings answer with
    | error e => exact h
    | ok config => exact updateConfig_held h (hlow answer config rfl hread)

/-- RUN: so it has at any time. -/
theorem after_held (h : bucket.Held) (hlow : NoneTooLow repr settings events) :
    (bucket.after repr settings events).Held := by
  induction events generalizing bucket with
  | nil => exact h
  | cons x rest ih =>
    obtain ⟨now, x⟩ := x
    have hevent : (bucket.event now repr settings x).2.Held := event_held h fun answer config hx =>
      hlow now answer config (hx ▸ List.mem_cons_self)
    exact ih hevent fun now answer config hmem =>
      hlow now answer config (List.mem_cons_of_mem _ hmem)

theorem init_held (h : settings.burst.natAbs < overflow) : (init settings start).Held := by
  have habs : ∀ (n : Int) (k : Nat), n.natAbs < k → -(k : Int) < n := by omega
  have hlow := habs _ _ h
  exact ⟨Or.inr ⟨settings.burst, rfl, neg_overflow_lt_cast.mpr hlow⟩,
    fun _ => le_refl (settings.burst : K), hlow⟩

/-- STEP: a call under a rate of NaN or plus infinity looks at a full bucket, whatever float the balance
    is. -/
theorem acquire_large {bucket : LiveBucket K} (hheld : bucket.Held) (hrate : bucket.rate.Large)
    (hlast : bucket.last ≤ now) : (bucket.acquire now).1 =
      if bucket.capacity < overflow then .ok (decide (1 ≤ bucket.capacity)) else .error intTooLarge := by
  have hcredit : (bucket.credit now).Large := (hrate.mul (sub_nonneg.mpr hlast)).toRange
  have hfull : asFloat bucket.tokens = .ok bucket.tokens →
      bucket.refilled now = .ok (.fin bucket.capacity) := by
    intro hfloat
    unfold refilled
    rw [hfloat]
    exact congrArg Except.ok (hcredit.add.toRange).least
  have hroom : (Special.fin (1 : K)).AtMost (.fin bucket.capacity) ↔ 1 ≤ bucket.capacity := by
    show (1 : K) ≤ (bucket.capacity : K) ↔ _
    rw [← Int.cast_one, Int.cast_le]
  unfold acquire
  by_cases hsmall : bucket.capacity < overflow
  · rw [hfull (hheld.asFloat_tokens hsmall), if_pos hsmall]
    dsimp only
    rw [hheld.asFloat_capacity hsmall]
    by_cases h : 1 ≤ bucket.capacity
    · rw [if_pos (hroom.mpr h), decide_eq_true h]
    · rw [if_neg (mt hroom.mp h), decide_eq_false h]
  · rw [if_neg hsmall]
    have hlarge : (overflow : Int) ≤ bucket.capacity := not_lt.mp hsmall
    have hone : 1 ≤ bucket.capacity := le_trans (by decide +kernel) hlarge
    have hnone : asFloat (Special.fin (bucket.capacity : K)) = .error intTooLarge := by
      refine if_neg fun hrange => hsmall (cast_lt_overflow.mp (lt_of_le_of_lt (le_abs_self _) hrange))
    rcases asFloat_cases bucket.tokens with hfloat | hfloat
    · rw [hfull hfloat]
      dsimp only
      rw [if_pos (hroom.mpr hone), hnone]
    · have hraised : bucket.refilled now = .error intTooLarge := by
        unfold refilled
        rw [hfloat]
        rfl
      rw [hraised]

/-- **The limit is lost**: with a rate of NaN or infinity in force every call is granted, at whatever
    pace they come, as long as the burst is at least one and a float; under a burst that is none, the
    call raises. -/
theorem limit_lost (hsettings : settings.burst.natAbs < overflow)
    (hlow : NoneTooLow repr settings events)
    (hrps : (lastConfig repr settings events).rps = .nan ∨
      (lastConfig repr settings events).rps = .inf false)
    (hordered : Timed start (events ++ [(now, .acquire)])) :
    (((init settings start).after repr settings events).acquire now).1 =
      if (lastConfig repr settings events).burst < overflow then
        .ok (decide (1 ≤ (lastConfig repr settings events).burst))
      else .error intTooLarge := by
  have hset : SetTo (lastConfig repr settings events) ((init settings start).after repr settings events) :=
    after_set events ⟨rfl, rfl⟩
  have hlast : ((init settings start).after repr settings events).last ≤ now :=
    after_last (le_refl start) hordered
  have hheld : ((init settings start).after repr settings events).Held :=
    after_held (init_held hsettings) hlow
  generalize (init settings start).after repr settings events = bucket at hset hlast hheld
  have hlarge : bucket.rate.Large := by
    rw [hset.1]
    rcases hrps with hnan | hinf
    · rw [hnan]
      exact .nan
    · rw [hinf]
      exact .plus
  rw [acquire_large hheld hlarge hlast, hset.2]

/-- `rps` is set to `nan`, and a call is granted. -/
theorem limit_lost_nan :
    (((init Sample.rateLimit (0 : ℚ)).after Sample.quoted Sample.rateLimit
      Sample.unlimited).acquire 1).1 = .ok true := by
  have hlast : lastConfig Sample.quoted Sample.rateLimit Sample.unlimited = ⟨.nan, 8⟩ := by
    simp only [lastConfig, Sample.unlimited, List.foldl, BucketEvent.configAfter, Sample.read_nan]
  have hordered : Timed (0 : ℚ) (Sample.unlimited ++ [(1, .acquire)]) := by
    unfold Timed
    decide +kernel
  have hlow : NoneTooLow Sample.quoted Sample.rateLimit Sample.unlimited := by
    intro now answer config hmem hread
    simp only [Sample.unlimited, List.mem_cons, Prod.mk.injEq, BucketEvent.refresh.injEq,
      List.not_mem_nil, or_false] at hmem
    rw [hmem.2, Sample.read_nan] at hread
    cases hread
    decide +kernel
  have hsmall : (8 : Int) < overflow := by decide +kernel
  rw [limit_lost (by decide +kernel) hlow (Or.inl (congrArg RateLimitConfig.rps hlast)) hordered, hlast,
    if_pos hsmall]
  rfl

/-- A rate that brings less than plus infinity in `span`. -/
def Moderate (span : K) : Special K → Prop
  | .fin x => span * x < overflow
  | .inf neg => neg = true
  | .nan => False

/-- No balance, and no rate that brings one back within `span`. -/
def Empty (span : K) (bucket : LiveBucket K) : Prop :=
  bucket.tokens = .inf true ∧ Moderate span bucket.rate

/-- What a moderate rate brings. -/
theorem credit_finOrMinus {span : K} (h : Moderate span bucket.rate) (hlast : bucket.last < now)
    (hspan : now - bucket.last ≤ span) : (bucket.credit now).FinOrMinus := by
  have helapsed : 0 < now - bucket.last := sub_pos.mpr hlast
  unfold credit
  generalize bucket.rate = rate at h
  cases rate with
  | nan => cases h
  | inf neg =>
    have hneg : neg = true := h
    rw [hneg, Special.mul_minus helapsed]
    exact .minus
  | fin x =>
    have hpos : (0 : K) < overflow := Nat.cast_pos.mpr (by decide +kernel)
    refine Special.finOrMinus_toRange ?_
    by_cases hx : 0 ≤ x
    · exact lt_of_le_of_lt (mul_le_mul_of_nonneg_right hspan hx) h
    · exact lt_of_le_of_lt (mul_nonpos_of_nonneg_of_nonpos helapsed.le (not_le.mp hx).le) hpos

/-- A credit on top of minus infinity. -/
theorem refilled_empty {span : K} (h : bucket.Empty span) (hlast : bucket.last < now)
    (hspan : now - bucket.last ≤ span) : bucket.refilled now = .ok (.inf true) := by
  unfold refilled
  rw [h.1]
  show Except.ok (Special.least _ (((Special.inf true).add (bucket.credit now)).toRange _)) = _
  rw [(credit_finOrMinus h.2 hlast hspan).minus_add]
  exact congrArg Except.ok (if_pos rfl)

omit [IsStrictOrderedRing K] in
/-- STEP: a call that finds minus infinity is refused and leaves the bucket empty. -/
theorem acquire_empty {span : K} (h : bucket.refilled now = .ok (.inf true))
    (hrate : Moderate span bucket.rate) :
    wasGranted (bucket.acquire now).1 = false ∧ (bucket.acquire now).2.Empty span := by
  have hrefuse : ¬ (Special.fin (1 : K)).AtMost (.inf true) := by simp [Special.AtMost]
  unfold acquire
  rw [h]
  dsimp only
  rw [if_neg hrefuse]
  exact ⟨rfl, rfl, hrate⟩

omit [IsStrictOrderedRing K] in
/-- STEP: an update keeps it empty. -/
theorem updateConfig_empty {span : K} (h : bucket.Empty span)
    (hrate : Moderate span (valueOfFloat config.rps)) : (bucket.updateConfig config).2.Empty span := by
  obtain ⟨tokens, htokens, hupdate⟩ := updateConfig_cases bucket config
  rw [hupdate]
  rw [h.1, Special.minus_least, or_self] at htokens
  exact ⟨htokens, hrate⟩

/-- RUN: an empty bucket grants nothing. -/
theorem grantsIn_empty {s e span : K} (h : bucket.Empty span) (hlast : bucket.last ≤ since)
    (hordered : (since :: later.map Prod.fst).Pairwise (· < ·))
    (hspan : ∀ x ∈ later, x.1 - bucket.last ≤ span)
    (hlater : ∀ t answer config, (t, .refresh answer) ∈ later →
      readRateLimitConfig repr settings answer = .ok config →
        Moderate span (valueOfFloat config.rps)) :
    grantsIn repr settings s e bucket later = 0 := by
  induction later generalizing bucket since with
  | nil => rfl
  | cons x rest ih =>
    obtain ⟨now, x⟩ := x
    have hnow : since < now := (List.pairwise_cons.mp hordered).1 now List.mem_cons_self
    have hevent : (bucket.event now repr settings x).1 = false ∧
        (bucket.event now repr settings x).2.Empty span ∧
        bucket.last ≤ (bucket.event now repr settings x).2.last := by
      cases x with
      | acquire =>
        have hlt : bucket.last < now := lt_of_le_of_lt hlast hnow
        have hacquire := acquire_empty
          (refilled_empty h hlt (hspan (now, .acquire) List.mem_cons_self)) h.2
        exact ⟨hacquire.1, hacquire.2, le_of_lt (lt_of_lt_of_eq hlt acquire_last.symm)⟩
      | refresh answer =>
        refine ⟨rfl, ?_⟩
        simp only [event, refreshPass]
        cases hread : readRateLimitConfig repr settings answer with
        | error e => exact ⟨h, le_refl _⟩
        | ok config =>
          have hconfig := hlater now answer config List.mem_cons_self hread
          dsimp only
          rw [updateConfig_last]
          exact ⟨updateConfig_empty h hconfig, le_refl _⟩
    have hrest : ∀ y ∈ rest, y.1 - (bucket.event now repr settings x).2.last ≤ span := by
      intro y hy
      have hy' := hspan y (List.mem_cons_of_mem _ hy)
      linarith [hevent.2.2]
    rw [grantsIn, hevent.1]
    simpa using ih hevent.2.1 (event_last hlast hnow.le) (List.pairwise_cons.mp hordered).2 hrest
      fun t answer config hmem => hlater t answer config (List.mem_cons_of_mem _ hmem)

/-- **A bucket that minus infinity has emptied stays empty**: once a call comes under a rate of minus
    infinity after some time, the process is granted nothing any more, whatever rates the operator
    puts in its place, as long as none of them brings plus infinity in the time that is left. -/
theorem stays_empty {s e span : K} (hsettings : settings.burst.natAbs < overflow)
    (hlow : NoneTooLow repr settings events)
    (hrps : (lastConfig repr settings events).rps = .inf true)
    (hburst : (lastConfig repr settings events).burst < overflow)
    (htime : ((init settings start).after repr settings events).last < now)
    (hordered : (now :: later.map Prod.fst).Pairwise (· < ·))
    (hspan : ∀ x ∈ later, x.1 - now ≤ span)
    (hlater : ∀ t answer config, (t, .refresh answer) ∈ later →
      readRateLimitConfig repr settings answer = .ok config →
        Moderate span (valueOfFloat config.rps)) :
    grantsIn repr settings s e ((init settings start).after repr settings (events ++ [(now, .acquire)]))
      later = 0 := by
  have hset : SetTo (lastConfig repr settings events) ((init settings start).after repr settings events) :=
    after_set events ⟨rfl, rfl⟩
  have hheld : ((init settings start).after repr settings events).Held :=
    after_held (init_held hsettings) hlow
  rw [after_append]
  generalize (init settings start).after repr settings events = bucket at hset hheld htime
  have hrate : bucket.rate = .inf true := hset.1.trans (by rw [hrps]; rfl)
  have htokens : bucket.tokens.FinOrMinus := by
    rcases hheld.tokens with hminus | ⟨x, hx, _⟩
    · rw [hminus]
      exact .minus
    · rw [hx]
      exact .fin x
  have hcredit : bucket.credit now = .inf true := by
    unfold credit
    rw [hrate, Special.mul_minus (sub_pos.mpr htime)]
    rfl
  have hminus : bucket.refilled now = .ok (.inf true) := by
    have hsmall : bucket.capacity < overflow := by rw [hset.2]; exact hburst
    unfold refilled
    rw [hheld.asFloat_tokens hsmall, hcredit]
    show Except.ok (Special.least _ ((bucket.tokens.add (.inf true)).toRange _)) = _
    rw [htokens.add_minus]
    exact congrArg Except.ok (if_pos rfl)
  have hmoderate : Moderate span bucket.rate := by
    rw [hrate]
    exact rfl
  have hempty := (acquire_empty hminus hmoderate).2
  have hlast : (bucket.acquire now).2.last = now := acquire_last
  rw [after_acquire]
  exact grantsIn_empty hempty (le_of_eq hlast) hordered (by rw [hlast]; exact hspan) hlater

/-- `rps` is `-inf` for one call; a minute of the old rate later there is still no token. -/
theorem stays_empty_minus :
    grantsIn Sample.quoted Sample.rateLimit 0 60 ((init Sample.rateLimit (0 : ℚ)).after Sample.quoted
      Sample.rateLimit (Sample.emptied ++ [(2, .acquire)])) [(30, .refresh (.ok [])), (60, .acquire)] = 0 := by
  have hlast : lastConfig Sample.quoted Sample.rateLimit Sample.emptied = ⟨.inf true, 8⟩ := by
    simp only [lastConfig, Sample.emptied, List.foldl, BucketEvent.configAfter, Sample.read_minus]
  have hlow : NoneTooLow Sample.quoted Sample.rateLimit Sample.emptied := by
    intro now answer config hmem hread
    simp only [Sample.emptied, List.mem_cons, Prod.mk.injEq, BucketEvent.refresh.injEq,
      List.not_mem_nil, or_false] at hmem
    rw [hmem.2, Sample.read_minus] at hread
    cases hread
    decide +kernel
  have hburst : (lastConfig Sample.quoted Sample.rateLimit Sample.emptied).burst < overflow := by
    rw [hlast]
    decide +kernel
  have hspan : ∀ x ∈ [((30 : ℚ), BucketEvent.refresh (.ok [])), (60, .acquire)], x.1 - 2 ≤ 58 := by
    decide +kernel
  refine stays_empty (by decide +kernel) hlow (congrArg RateLimitConfig.rps hlast) hburst
    (by decide +kernel) (by decide +kernel) hspan ?_
  intro t answer config hmem hread
  simp only [List.mem_cons, Prod.mk.injEq, BucketEvent.refresh.injEq, reduceCtorEq, and_false,
    List.not_mem_nil, or_false] at hmem
  obtain ⟨_, rfl⟩ := hmem
  cases hread
  have hsmall : ((232 : ℕ) : ℚ) < (overflow : ℚ) := Nat.cast_lt.mpr (by decide +kernel)
  have hproduct : (58 : ℚ) * (1 * ((4 : ℕ) * 10 ^ (0 : ℤ))) = (232 : ℕ) := by norm_num
  show (58 : ℚ) * (1 * ((4 : ℕ) * 10 ^ (0 : ℤ))) < overflow
  exact lt_of_eq_of_lt hproduct hsmall

end LiveBucket

end InvoiceOcr
