/-
  File:      InvoiceOcr/Text/Float.lean
  Subject:   FLOATS FROM AND TO TEXT, as `float(s)`, `int(x)` and `str(x)` have them. Nothing here
             names a program.

  * `PyFloat` -- a finite float is the exact decimal it was read from; the range is that of binary64;
  * `parseFloat` -- `float(s)`; `reprFloat` -- `str(x)`;
  * `toDigits_ofDigitChars` -- digits without a leading zero are what their value is written with.
-/
import Mathlib.Algebra.Group.Nat.Defs
import Mathlib.Data.Int.Notation
import InvoiceOcr.Text.Chars

namespace PyText

/-- A float: no number, an infinity, or `m · 10 ^ e` with a sign. -/
inductive PyFloat where
  | nan
  | inf (neg : Bool)
  | fin (neg : Bool) (m : Nat) (e : Int)
  deriving DecidableEq, Repr

/-! ## 1. Reading -/

/-- A character in ASCII: a decimal as its digit, whitespace as a blank, any other as `?`. -/
def toAscii (c : Char) : Char :=
  if c.toNat < 127 then c
  else if isSpace c then ' '
  else
    match decimal? c with
    | some d => Nat.digitChar d
    | none => '?'

/-- The whitespace of C. -/
def isBlank (c : Char) : Bool :=
  c = ' ' || c = '\t' || c = '\n' || c = '\x0b' || c = '\x0c' || c = '\r'

/-- Underscores stand between digits, and are left out. -/
def dropUnderscores (prev : Char) : List Char → Option (List Char)
  | [] => if prev = '_' then none else some []
  | c :: cs =>
    if c = '_' then
      if prev.isDigit then dropUnderscores c cs else none
    else if prev = '_' ∧ c.isDigit = false then none
    else (dropUnderscores c cs).map fun cs => c :: cs

/-- Digits to the end, at least one. -/
def readNat (ds : List Char) : Option Nat :=
  if ds ≠ [] ∧ ds.all Char.isDigit then some (Nat.ofDigitChars 10 ds 0) else none

/-- Digits to the end, with or without a sign. -/
def readPower : List Char → Option Int
  | '-' :: ds => (readNat ds).map fun (n : Nat) => -(n : Int)
  | '+' :: ds => (readNat ds).map fun (n : Nat) => (n : Int)
  | ds => (readNat ds).map fun (n : Nat) => (n : Int)

/-- An exponent to the end, or nothing. -/
def readExponent : List Char → Option Int
  | [] => some 0
  | c :: cs => if c = 'e' ∨ c = 'E' then readPower cs else none

/-- The fraction's digits, and what follows them. -/
def readFraction : List Char → List Char × List Char
  | '.' :: cs => (cs.takeWhile Char.isDigit, cs.dropWhile Char.isDigit)
  | cs => ([], cs)

/-- A decimal without sign, as its digits and its power of ten. -/
def readDecimal (cs : List Char) : Option (Nat × Int) :=
  let whole := cs.takeWhile Char.isDigit
  let (fraction, r) := readFraction (cs.dropWhile Char.isDigit)
  if whole ++ fraction = [] then none
  else
    (readExponent r).map fun x =>
      (Nat.ofDigitChars 10 (whole ++ fraction) 0, x - fraction.length)

/-- From here on, binary64 rounds to infinity. -/
def overflow : Nat := 2 ^ 1024 - 2 ^ 970

/-- `m · 10 ^ e` is rounded to infinity. -/
def overflows (m : Nat) : Int → Bool
  | .ofNat k => overflow ≤ m * 10 ^ k
  | .negSucc k => overflow * 10 ^ (k + 1) ≤ m

/-- `m · 10 ^ e` is rounded to zero: it is at most `2 ^ -1075`. -/
def underflows (m : Nat) : Int → Bool
  | .ofNat _ => m = 0
  | .negSucc k => m * 2 ^ 1075 ≤ 10 ^ (k + 1)

/-- A decimal in the range of binary64. -/
def ofDecimal (neg : Bool) (m : Nat) (e : Int) : PyFloat :=
  if overflows m e then .inf neg
  else if underflows m e then .fin neg 0 0
  else .fin neg m e

/-- What follows the sign. -/
def readUnsigned (neg : Bool) (cs : List Char) : Option PyFloat :=
  let word := cs.map Char.toLower
  if word = "inf".toList ∨ word = "infinity".toList then some (.inf neg)
  else if word = "nan".toList then some .nan
  else (readDecimal cs).map fun x => ofDecimal neg x.1 x.2

/-- The sign, and what follows it. -/
def readSigned : List Char → Option PyFloat
  | '-' :: cs => readUnsigned true cs
  | '+' :: cs => readUnsigned false cs
  | cs => readUnsigned false cs

/-- `float(s)`; `none` is a `ValueError`. -/
def parseFloat (s : List Char) : Option PyFloat :=
  (dropUnderscores '\x00' (stripBy isBlank (s.map toAscii))).bind readSigned

/-! ## 2. Writing -/

/-- `m · 10 ^ e` is an integer. -/
def isWhole (m : Nat) : Int → Bool
  | .ofNat _ => true
  | .negSucc k => m % 10 ^ (k + 1) = 0

/-- `m · 10 ^ e` without its fraction. -/
def wholePart (m : Nat) : Int → Nat
  | .ofNat k => m * 10 ^ k
  | .negSucc k => m / 10 ^ (k + 1)

namespace PyFloat

/-- `math.isfinite(x)`. -/
def isFinite : PyFloat → Bool
  | fin _ _ _ => true
  | _ => false

/-- `x == int(x)`, where the right side is defined. -/
def isInteger : PyFloat → Bool
  | fin _ m e => isWhole m e
  | _ => false

end PyFloat

def isZero (c : Char) : Bool := c = '0'

theorem isZero_eq {c : Char} (h : isZero c = true) : c = '0' := of_decide_eq_true h

/-- The digits of `m`, zeros at the end left out. -/
def significant (m : Nat) : List Char :=
  if m = 0 then ['0'] else (Nat.toDigits 10 m).rdropWhile isZero

/-- Where the point of `m · 10 ^ e` stands among its digits. -/
def pointAt (m : Nat) (e : Int) : Int :=
  if m = 0 then 1 else (Nat.toDigits 10 m).length + e

/-- Digits with a point; a whole number ends in `.0`. -/
def positional (ds : List Char) (point : Int) : List Char :=
  if point ≤ 0 then '0' :: '.' :: (List.replicate (-point).toNat '0' ++ ds)
  else if ds.length ≤ point.toNat then
    ds ++ (List.replicate (point.toNat - ds.length) '0' ++ ['.', '0'])
  else ds.take point.toNat ++ '.' :: ds.drop point.toNat

/-- An exponent has two digits at least. -/
def exponentDigits (n : Nat) : List Char :=
  if n < 10 then '0' :: Nat.toDigits 10 n else Nat.toDigits 10 n

/-- One digit before the point, and an exponent. -/
def scientific (ds : List Char) (point : Int) : List Char :=
  ds.take 1 ++ (if ds.length ≤ 1 then [] else '.' :: ds.drop 1) ++
    ('e' :: (if point ≤ 0 then '-' else '+') :: exponentDigits (point - 1).natAbs)

/-- `str` of `m · 10 ^ e`. -/
def reprDecimal (m : Nat) (e : Int) : List Char :=
  if -4 < pointAt m e ∧ pointAt m e ≤ 16 then positional (significant m) (pointAt m e)
  else scientific (significant m) (pointAt m e)

/-- `str(x)` of a float. -/
def reprFloat : PyFloat → List Char
  | .nan => "nan".toList
  | .inf false => "inf".toList
  | .inf true => "-inf".toList
  | .fin false m e => reprDecimal m e
  | .fin true m e => '-' :: reprDecimal m e

/-- `str(n)` of an integer. -/
def intText : Int → List Char
  | .ofNat n => Nat.toDigits 10 n
  | .negSucc n => '-' :: Nat.toDigits 10 (n + 1)

/-! ## 3. Digits -/

/-- Decimal digits of ASCII only. -/
def Digits (ds : List Char) : Prop := ∀ c ∈ ds, c.isDigit = true

/-- The value of digits. -/
def valueOf (ds : List Char) : Nat := Nat.ofDigitChars 10 ds 0

/-- A zero stands in front only by itself. -/
def NoLeadingZero (ds : List Char) : Prop := ds ≠ [] ∧ (ds.head? = some '0' → ds = ['0'])

section DigitTexts

variable {ds es : List Char} {c : Char} {n : Nat}

theorem toNat_digit (h : c.isDigit = true) : 48 ≤ c.toNat ∧ c.toNat ≤ 57 := by
  simp only [Char.isDigit, Bool.and_eq_true, decide_eq_true_eq] at h
  exact h

theorem digitChar_toNat (h : c.isDigit = true) : Nat.digitChar (c.toNat - 48) = c := by
  have hc := toNat_digit h
  apply Char.toNat_inj.mp
  rw [Nat.toNat_digitChar_of_lt_ten (by omega)]
  omega

theorem digits_append : Digits (ds ++ es) ↔ Digits ds ∧ Digits es := List.forall_mem_append

theorem digits_toDigits (n : Nat) : Digits (Nat.toDigits 10 n) :=
  fun _ hc => Nat.isDigit_of_mem_toDigits (by omega) (by omega) hc

theorem valueOf_append : valueOf (ds ++ es) = 10 ^ es.length * valueOf ds + valueOf es := by
  unfold valueOf
  rw [Nat.ofDigitChars_append, Nat.ofDigitChars_eq_ofDigitChars_zero]

theorem valueOf_lt (h : Digits ds) : valueOf ds < 10 ^ ds.length := by
  induction ds with
  | nil => exact Nat.one_pos
  | cons c ds ih =>
    have hc := toNat_digit (h c List.mem_cons_self)
    have htail := ih fun d hd => h d (List.mem_cons_of_mem c hd)
    have hvalue : valueOf (c :: ds) = 10 ^ ds.length * (c.toNat - 48) + valueOf ds := by
      have happ := @valueOf_append [c] ds
      unfold valueOf at happ ⊢
      rw [Nat.ofDigitChars_cons, Nat.ofDigitChars_nil] at happ
      simpa using happ
    rw [hvalue, List.length_cons, Nat.pow_succ]
    have hmul : 10 ^ ds.length * (c.toNat - 48) ≤ 10 ^ ds.length * 9 :=
      Nat.mul_le_mul_left _ (by omega)
    omega

/-- Digits after a positive number. -/
theorem toDigits_append (hn : 0 < n) (h : Digits ds) :
    Nat.toDigits 10 (Nat.ofDigitChars 10 ds n) = Nat.toDigits 10 n ++ ds := by
  induction ds generalizing n with
  | nil => rw [Nat.ofDigitChars_nil, List.append_nil]
  | cons c ds ih =>
    have hc := toNat_digit (h c List.mem_cons_self)
    have hone : Nat.toDigits 10 (c.toNat - 48) = [c] := by
      rw [Nat.toDigits_of_lt_base (by omega), digitChar_toNat (h c List.mem_cons_self)]
    have hstep : Nat.toDigits 10 (10 * n + (c.toNat - 48)) = Nat.toDigits 10 n ++ [c] := by
      rw [← Nat.toDigits_append_toDigits (by omega) hn (by omega), hone]
    rw [Nat.ofDigitChars_cons, ih (by omega) fun d hd => h d (List.mem_cons_of_mem c hd)]
    show Nat.toDigits 10 (10 * n + (c.toNat - 48)) ++ ds = _
    rw [hstep, List.append_assoc]
    rfl

theorem digit_zero (h : c.isDigit = true) (hc : c.toNat - 48 = 0) : c = '0' := by
  rw [← digitChar_toNat h, hc]
  rfl

/-- **Digits without a leading zero are what their value is written with.** -/
theorem toDigits_valueOf (h : Digits ds) (hlead : NoLeadingZero ds) :
    Nat.toDigits 10 (valueOf ds) = ds := by
  cases ds with
  | nil => exact absurd rfl hlead.1
  | cons c ds =>
    have hc := toNat_digit (h c List.mem_cons_self)
    unfold valueOf
    rw [Nat.ofDigitChars_cons, Nat.mul_zero, Nat.zero_add]
    show Nat.toDigits 10 (Nat.ofDigitChars 10 ds (c.toNat - 48)) = c :: ds
    by_cases hzero : c.toNat - 48 = 0
    · have hc0 : c = '0' := digit_zero (h c List.mem_cons_self) hzero
      subst hc0
      have hnil : ds = [] := List.tail_eq_of_cons_eq (hlead.2 rfl)
      subst hnil
      rfl
    · rw [toDigits_append (by omega) fun d hd => h d (List.mem_cons_of_mem c hd),
        Nat.toDigits_of_lt_base (by omega), digitChar_toNat (h c List.mem_cons_self)]
      rfl

theorem valueOf_toDigits (n : Nat) : valueOf (Nat.toDigits 10 n) = n :=
  Nat.ofDigitChars_ten_toDigits

theorem head_toDigits (hn : 0 < n) : (Nat.toDigits 10 n).head? ≠ some '0' := by
  induction n using Nat.strongRecOn with
  | ind n ih =>
    rw [Nat.toDigits_eq_if (by omega)]
    by_cases hlt : n < 10
    · rw [if_pos hlt]
      intro hhead
      have hnat := congrArg Char.toNat (Option.some.inj hhead)
      rw [Nat.toNat_digitChar_of_lt_ten hlt] at hnat
      have h48 : ('0' : Char).toNat = 48 := rfl
      omega
    · rw [if_neg hlt, List.head?_append_of_ne_nil _ Nat.toDigits_ne_nil]
      exact ih (n / 10) (by omega) (by omega)

/-- A number is written without a leading zero. -/
theorem noLeadingZero_toDigits (n : Nat) : NoLeadingZero (Nat.toDigits 10 n) := by
  refine ⟨Nat.toDigits_ne_nil, fun hhead => ?_⟩
  by_cases hn : 0 < n
  · exact absurd hhead (head_toDigits hn)
  · have hzero : n = 0 := by omega
    rw [hzero, Nat.toDigits_zero]

end DigitTexts

/-! ## 4. Reading digits -/

section Reading

variable {ds ip fp s r : List Char} {c d : Char}

theorem dropUnderscores_eq {prev : Char} (hprev : prev ≠ '_') (h : ∀ c ∈ s, c ≠ '_') :
    dropUnderscores prev s = some s := by
  induction s generalizing prev with
  | nil => exact if_neg hprev
  | cons c s ih =>
    have hc := h c List.mem_cons_self
    unfold dropUnderscores
    rw [if_neg hc, if_neg fun hp => hprev hp.1, ih hc fun d hd => h d (List.mem_cons_of_mem c hd)]
    rfl

/-- A text that begins with no digit. -/
def Stops (r : List Char) : Prop := ∀ c, r.head? = some c → c.isDigit = false

theorem takeWhile_digits (h : Digits ds) (hr : Stops r) :
    (ds ++ r).takeWhile Char.isDigit = ds ∧ (ds ++ r).dropWhile Char.isDigit = r := by
  have htail : r.takeWhile Char.isDigit = [] ∧ r.dropWhile Char.isDigit = r := by
    cases r with
    | nil => exact ⟨rfl, rfl⟩
    | cons c r =>
      have hc : ¬ c.isDigit = true := by rw [hr c rfl]; simp
      exact ⟨List.takeWhile_cons_of_neg hc, List.dropWhile_cons_of_neg hc⟩
  rw [List.takeWhile_append_of_pos h, List.dropWhile_append_of_pos h, htail.1, htail.2,
    List.append_nil]
  exact ⟨rfl, rfl⟩

theorem readDecimal_whole (h : Digits ip) (hne : ip ≠ []) :
    readDecimal ip = some (valueOf ip, 0) := by
  have hspan := @takeWhile_digits ip [] h nofun
  rw [List.append_nil] at hspan
  unfold readDecimal
  rw [hspan.1, hspan.2]
  simp only [readFraction, List.append_nil, if_neg hne]
  rfl

theorem readDecimal_point (hip : Digits ip) (hfp : Digits fp) (hne : ip ++ fp ≠ []) :
    readDecimal (ip ++ '.' :: fp) = some (valueOf (ip ++ fp), -(fp.length : Int)) := by
  have hdot : Stops ('.' :: fp) := by
    intro c hc
    cases hc
    rfl
  have hspan := takeWhile_digits hip hdot
  have hfraction := @takeWhile_digits fp [] hfp nofun
  rw [List.append_nil] at hfraction
  unfold readDecimal
  rw [hspan.1, hspan.2]
  simp only [readFraction, hfraction.1, hfraction.2, if_neg hne]
  show some (valueOf (ip ++ fp), (0 : Int) - fp.length) = _
  rw [Int.zero_sub]

/-- A text that begins with a digit or a point has no sign and is no word. -/
theorem readSigned_eq (hs : s.head? = some c) (hc : c.isDigit = true ∨ c = '.') :
    readSigned s = (readDecimal s).map fun x => ofDecimal false x.1 x.2 := by
  have hlower : c.toLower ≠ 'i' ∧ c.toLower ≠ 'n' ∧ c ≠ '-' ∧ c ≠ '+' := by
    have hdigit : ∀ d < 10, (Nat.digitChar d).toLower ≠ 'i' ∧ (Nat.digitChar d).toLower ≠ 'n' ∧
        Nat.digitChar d ≠ '-' ∧ Nat.digitChar d ≠ '+' := by decide
    rcases hc with hc | rfl
    · have hnat := toNat_digit hc
      rw [← digitChar_toNat hc]
      exact hdigit (c.toNat - 48) (by omega)
    · decide
  cases s with
  | nil => cases hs
  | cons c' s =>
    cases hs
    have hunsigned : readSigned (c :: s) = readUnsigned false (c :: s) := by
      unfold readSigned
      split
      · next hsign => exact absurd (List.head_eq_of_cons_eq hsign) hlower.2.2.1
      · next hsign => exact absurd (List.head_eq_of_cons_eq hsign) hlower.2.2.2
      · rfl
    have hinf : (c :: s).map Char.toLower ≠ "inf".toList ∧
        (c :: s).map Char.toLower ≠ "infinity".toList ∧
        (c :: s).map Char.toLower ≠ "nan".toList :=
      ⟨fun h => hlower.1 (List.head_eq_of_cons_eq h), fun h => hlower.1 (List.head_eq_of_cons_eq h),
        fun h => hlower.2.1 (List.head_eq_of_cons_eq h)⟩
    rw [hunsigned]
    unfold readUnsigned
    simp only [hinf.1, hinf.2.1, hinf.2.2, or_self, if_false]

theorem digit_or_point (hc : c.isDigit = true ∨ c = '.') : toAscii c = c ∧ isBlank c = false := by
  have hdigit : ∀ d < 10, toAscii (Nat.digitChar d) = Nat.digitChar d ∧
      isBlank (Nat.digitChar d) = false := by decide
  rcases hc with hc | rfl
  · have hnat := toNat_digit hc
    rw [← digitChar_toNat hc]
    exact hdigit (c.toNat - 48) (by omega)
  · decide

/-- A text without sign, blanks at its ends and underscores. -/
theorem parseFloat_eq (hs : s.head? = some c) (hc : c.isDigit = true ∨ c = '.')
    (hplain : ∀ d ∈ s, toAscii d ≠ '_')
    (hlast : ∀ d, s.getLast? = some d → isBlank (toAscii d) = false) :
    parseFloat s = (readDecimal (s.map toAscii)).map fun x => ofDecimal false x.1 x.2 := by
  have hhead : (s.map toAscii).head? = some c := by
    rw [List.head?_map, hs, Option.map_some, (digit_or_point hc).1]
  have hstrip : stripBy isBlank (s.map toAscii) = s.map toAscii := by
    refine stripBy_eq_self (fun d hd => ?_) fun d hd => ?_
    · cases hhead.symm.trans hd
      exact (digit_or_point hc).2
    · rw [List.getLast?_map] at hd
      obtain ⟨e, he, rfl⟩ := Option.map_eq_some_iff.mp hd
      exact hlast e he
  have hunder : ∀ d ∈ s.map toAscii, d ≠ '_' := by
    intro d hd
    obtain ⟨e, he, rfl⟩ := List.mem_map.mp hd
    exact hplain e he
  unfold parseFloat
  rw [hstrip, dropUnderscores_eq (by decide) hunder]
  exact readSigned_eq hhead hc

/-- Digits and points are read as they are. -/
theorem parseFloat_decimal (hs : s ≠ []) (h : ∀ d ∈ s, d.isDigit = true ∨ d = '.') :
    parseFloat s = (readDecimal s).map fun x => ofDecimal false x.1 x.2 := by
  have hsame : s.map toAscii = s :=
    calc s.map toAscii = s.map id := List.map_congr_left fun d hd => (digit_or_point (h d hd)).1
      _ = s := List.map_id s
  have hunder : ∀ d ∈ s, toAscii d ≠ '_' := by
    intro d hd hd'
    rw [(digit_or_point (h d hd)).1] at hd'
    subst hd'
    rcases h _ hd with hdigit | hpoint
    · simp at hdigit
    · simp at hpoint
  have hblank : ∀ d, s.getLast? = some d → isBlank (toAscii d) = false := by
    intro d hd
    have hmem := List.mem_of_getLast? hd
    rw [(digit_or_point (h d hmem)).1]
    exact (digit_or_point (h d hmem)).2
  have hhead := List.head?_eq_some_head hs
  rw [parseFloat_eq hhead (h _ (List.mem_of_head? hhead)) hunder hblank, hsame]

theorem digits_takeWhile (s : List Char) : Digits (s.takeWhile Char.isDigit) :=
  fun _ hc => List.mem_takeWhile_imp hc

theorem last_digits (h : Digits ds) (hc : ds.getLast? = some c) : c.isDigit = true :=
  h c (List.mem_of_getLast? hc)

theorem last_of_readNat {n : Nat} (h : readNat ds = some n) (hc : (r ++ ds).getLast? = some c) :
    c.isDigit = true := by
  unfold readNat at h
  split at h
  · next hds =>
    rw [List.getLast?_append_of_ne_nil _ hds.1] at hc
    exact last_digits (List.all_eq_true.mp hds.2) hc
  · simp at h

/-- An exponent ends in a digit. -/
theorem last_of_readExponent {x : Int} (h : readExponent r = some x) (hc : r.getLast? = some c) :
    c.isDigit = true := by
  cases r with
  | nil => cases hc
  | cons e cs =>
    rw [readExponent] at h
    split at h
    · unfold readPower at h
      split at h
      · next ds =>
        obtain ⟨n, hn, -⟩ := Option.map_eq_some_iff.mp h
        exact @last_of_readNat ds [e, '-'] c n hn hc
      · next ds =>
        obtain ⟨n, hn, -⟩ := Option.map_eq_some_iff.mp h
        exact @last_of_readNat ds [e, '+'] c n hn hc
      · obtain ⟨n, hn, -⟩ := Option.map_eq_some_iff.mp h
        exact @last_of_readNat cs [e] c n hn hc
    · simp at h

/-- A decimal ends in a digit or a point. -/
theorem last_of_readDecimal {x : Nat × Int} (h : readDecimal s = some x) (hc : s.getLast? = some c) :
    c.isDigit = true ∨ c = '.' := by
  unfold readDecimal at h
  simp only at h
  split at h
  · simp at h
  · obtain ⟨e, he, -⟩ := Option.map_eq_some_iff.mp h
    have hsplit := @List.takeWhile_append_dropWhile _ Char.isDigit s
    generalize s.dropWhile Char.isDigit = t at he hsplit
    rw [← hsplit, List.getLast?_append] at hc
    -- the last character is that of the exponent, of the fraction, the point, or of the whole part
    have hwhole : (s.takeWhile Char.isDigit).getLast? = some c → c.isDigit = true :=
      last_digits (digits_takeWhile s)
    unfold readFraction at he
    split at he
    · next cs =>
      have hcs := @List.takeWhile_append_dropWhile _ Char.isDigit cs
      simp only at he
      generalize cs.dropWhile Char.isDigit = r at he hcs
      rw [← hcs, ← List.cons_append, List.getLast?_append] at hc
      cases hr : r.getLast? with
      | some d =>
        rw [hr] at hc
        cases hc
        exact Or.inl (last_of_readExponent he hr)
      | none =>
        rw [hr] at hc
        cases hf : (cs.takeWhile Char.isDigit).getLast? with
        | some d =>
          rw [List.getLast?_cons, hf] at hc
          cases hc
          exact Or.inl (last_digits (digits_takeWhile cs) hf)
        | none =>
          rw [List.getLast?_cons, hf] at hc
          cases hc
          exact Or.inr rfl
    · cases ht : t.getLast? with
      | some d =>
        rw [ht] at hc
        cases hc
        exact Or.inl (last_of_readExponent he ht)
      | none =>
        rw [ht] at hc
        exact Or.inl (hwhole hc)

/-- **A number followed by a letter is no float.** -/
theorem parseFloat_letter (hs : s.head? = some d) (hd : d.isDigit = true)
    (hplain : ∀ d ∈ s, toAscii d ≠ '_') (hlast : s.getLast? = some c)
    (hc : isBlank (toAscii c) = false ∧ (toAscii c).isDigit = false ∧ toAscii c ≠ '.') :
    parseFloat s = none := by
  have hblank : ∀ e, s.getLast? = some e → isBlank (toAscii e) = false := by
    intro e he
    cases hlast.symm.trans he
    exact hc.1
  rw [parseFloat_eq hs (Or.inl hd) hplain hblank]
  cases hread : readDecimal (s.map toAscii) with
  | none => rfl
  | some x =>
    have hend : (s.map toAscii).getLast? = some (toAscii c) := by
      rw [List.getLast?_map, hlast, Option.map_some]
    rcases last_of_readDecimal hread hend with hdigit | hpoint
    · rw [hc.2.1] at hdigit
      simp at hdigit
    · exact absurd hpoint hc.2.2

/-- A point splits digits in one way. -/
theorem split_point {ip' fp' : List Char} (h : Digits ip) (h' : Digits ip')
    (heq : ip ++ '.' :: fp = ip' ++ '.' :: fp') : ip = ip' ∧ fp = fp' := by
  have hdot : ∀ t, Stops ('.' :: t) := by
    intro t c hc
    cases hc
    rfl
  have hspan := takeWhile_digits h (hdot fp)
  have hspan' := takeWhile_digits h' (hdot fp')
  rw [heq] at hspan
  exact ⟨hspan.1.symm.trans hspan'.1, List.tail_eq_of_cons_eq (hspan.2.symm.trans hspan'.2)⟩

end Reading

/-! ## 5. Writing decimals -/

/-- A number with a fraction as `str` writes it: no zeros that could be left out, not so many digits
    before the point, or zeros after it, that there is an exponent. -/
structure Canonical (ip fp : List Char) : Prop where
  whole : NoLeadingZero ip
  fraction : fp.getLast? ≠ some '0'
  small : ip = ['0'] → ¬ "0000".toList <+: fp
  large : ip.length ≤ 16

section Writing

variable {ds ip fp : List Char} {c : Char} {m k : Nat}

/-- Digits that do not end in a zero are no multiple of ten. -/
theorem valueOf_last (h : Digits ds) (hne : ds ≠ []) (hlast : ds.getLast? ≠ some '0') :
    valueOf ds % 10 ≠ 0 := by
  have hsplit := List.dropLast_concat_getLast hne
  have hc := h _ (List.getLast_mem hne)
  have hvalue := @valueOf_append ds.dropLast [ds.getLast hne]
  rw [hsplit] at hvalue
  have hone : valueOf [ds.getLast hne] = (ds.getLast hne).toNat - 48 := by
    unfold valueOf
    rw [Nat.ofDigitChars_cons, Nat.ofDigitChars_nil, Nat.mul_zero, Nat.zero_add]
    rfl
  have hpos : (ds.getLast hne).toNat - 48 ≠ 0 := by
    intro hzero
    rw [List.getLast?_eq_some_getLast hne, digit_zero hc hzero] at hlast
    exact hlast rfl
  have hlt := toNat_digit hc
  rw [hvalue, hone, List.length_singleton, Nat.pow_one]
  omega

/-- Digits that begin and end with none are all of their value. -/
theorem significant_valueOf (h : Digits ds) (hlead : NoLeadingZero ds)
    (hlast : ds.getLast? ≠ some '0') : significant (valueOf ds) = ds := by
  have hpos := valueOf_last h hlead.1 hlast
  unfold significant
  rw [if_neg (by omega), toDigits_valueOf h hlead, List.rdropWhile_eq_self_iff]
  intro hne hzero
  rw [List.getLast?_eq_some_getLast hne, isZero_eq hzero] at hlast
  exact hlast rfl

theorem pointAt_valueOf (h : Digits ds) (hlead : NoLeadingZero ds) (hlast : ds.getLast? ≠ some '0')
    (e : Int) : pointAt (valueOf ds) e = ds.length + e := by
  have hpos := valueOf_last h hlead.1 hlast
  unfold pointAt
  rw [if_neg (by omega), toDigits_valueOf h hlead]

theorem valueOf_zeros (n : Nat) : valueOf (List.replicate n '0' ++ ds) = valueOf ds := by
  rw [valueOf_append]
  have hzero : valueOf (List.replicate n '0') = 0 := by
    unfold valueOf
    rw [Nat.ofDigitChars_replicate_zero, Nat.mul_zero]
  rw [hzero, Nat.mul_zero, Nat.zero_add]

/-- Digits that do not end in a zero are zeros, and then digits that do not begin with one. -/
theorem leading_zeros (hlast : ds.getLast? ≠ some '0') (hne : ds ≠ []) :
    ∃ n rest, ds = List.replicate n '0' ++ rest ∧ rest ≠ [] ∧ rest.head? ≠ some '0' ∧
      rest.getLast? = ds.getLast? := by
  have hsplit := @List.takeWhile_append_dropWhile _ isZero ds
  have hzeros : ds.takeWhile isZero = List.replicate (ds.takeWhile isZero).length '0' :=
    List.eq_replicate_iff.mpr ⟨rfl, fun c hc => isZero_eq (List.mem_takeWhile_imp hc)⟩
  have hrest : ds.dropWhile isZero ≠ [] := by
    intro hnil
    rw [List.getLast?_eq_some_getLast hne] at hlast
    have hall := List.dropWhile_eq_nil_iff.mp hnil _ (List.getLast_mem hne)
    exact hlast (congrArg some (isZero_eq hall))
  refine ⟨_, _, (hzeros ▸ hsplit).symm, hrest, fun hhead => ?_, ?_⟩
  · have hnot := List.head_dropWhile_not isZero hrest
    rw [List.head?_eq_some_head hrest] at hhead
    rw [Option.some.inj hhead] at hnot
    cases hnot
  · have hlast' := List.getLast?_append_of_ne_nil (ds.takeWhile isZero) hrest
    rw [hsplit] at hlast'
    exact hlast'.symm

theorem noLeadingZero_of_head (hne : ds ≠ []) (h : ds.head? ≠ some '0') : NoLeadingZero ds :=
  ⟨hne, fun hhead => absurd hhead h⟩

/-- Digits and point of a canonical decimal: with a whole part, or with up to three zeros after the
    point. -/
theorem canonical_point (hip : Digits ip) (hfp : Digits fp) (hne : fp ≠ []) (h : Canonical ip fp) :
    (pointAt (valueOf (ip ++ fp)) (-(fp.length : Int)) = ip.length ∧
        significant (valueOf (ip ++ fp)) = ip ++ fp) ∨
      ∃ n rest, n < 4 ∧ ip = ['0'] ∧ fp = List.replicate n '0' ++ rest ∧
        pointAt (valueOf (ip ++ fp)) (-(fp.length : Int)) = -(n : Int) ∧
        significant (valueOf (ip ++ fp)) = rest := by
  by_cases hzero : ip = ['0']
  · obtain ⟨n, rest, hsplit, hrest, hhead, hlast⟩ := leading_zeros h.fraction hne
    have hdigits : Digits rest := (digits_append.mp (hsplit ▸ hfp)).2
    have hvalue : valueOf (ip ++ fp) = valueOf rest := by
      rw [hzero, hsplit]
      exact @valueOf_zeros rest (n + 1)
    have hlast' : rest.getLast? ≠ some '0' := by rw [hlast]; exact h.fraction
    have hlead := noLeadingZero_of_head hrest hhead
    have hn : n < 4 := by
      by_contra hge
      refine h.small hzero ⟨List.replicate (n - 4) '0' ++ rest, ?_⟩
      rw [hsplit, ← List.append_assoc]
      show List.replicate 4 '0' ++ List.replicate (n - 4) '0' ++ rest = _
      rw [List.replicate_append_replicate, show 4 + (n - 4) = n by omega]
    refine Or.inr ⟨n, rest, hn, hzero, hsplit, ?_, ?_⟩
    · rw [hvalue, pointAt_valueOf hdigits hlead hlast', hsplit, List.length_append,
        List.length_replicate]
      omega
    · rw [hvalue, significant_valueOf hdigits hlead hlast']
  · have hhead : (ip ++ fp).head? ≠ some '0' := by
      rw [List.head?_append_of_ne_nil _ h.whole.1]
      exact fun hhead => hzero (h.whole.2 hhead)
    have hlead := noLeadingZero_of_head (List.append_ne_nil_of_left_ne_nil h.whole.1 fp) hhead
    have hlast : (ip ++ fp).getLast? ≠ some '0' := by
      rw [List.getLast?_append_of_ne_nil _ hne]
      exact h.fraction
    have hdigits := digits_append.mpr ⟨hip, hfp⟩
    refine Or.inl ⟨?_, significant_valueOf hdigits hlead hlast⟩
    rw [pointAt_valueOf hdigits hlead hlast, List.length_append]
    omega

/-- **A canonical decimal is what its value is written with.** -/
theorem reprDecimal_canonical (hip : Digits ip) (hfp : Digits fp) (hne : fp ≠ [])
    (h : Canonical ip fp) :
    reprDecimal (valueOf (ip ++ fp)) (-(fp.length : Int)) = ip ++ '.' :: fp := by
  have hpos := List.length_pos_of_ne_nil h.whole.1
  have hfpos := List.length_pos_of_ne_nil hne
  have hlarge := h.large
  unfold reprDecimal positional
  rcases canonical_point hip hfp hne h with ⟨hpoint, hdigits⟩ | ⟨n, rest, hn, hip0, hsplit, hpoint, hdigits⟩
  · rw [hpoint, hdigits, if_pos (by omega), if_neg (by omega), Int.toNat_natCast, List.length_append,
      if_neg (by omega), List.take_left, List.drop_left]
  · rw [hpoint, hdigits, if_pos (by omega), if_pos (by omega), Int.neg_neg, Int.toNat_natCast, hip0,
      hsplit]
    rfl

theorem isWhole_neg (hk : 0 < k) : isWhole m (-(k : Int)) = decide (m % 10 ^ k = 0) := by
  obtain ⟨j, rfl⟩ : ∃ j, k = j + 1 := ⟨k - 1, by omega⟩
  rfl

theorem wholePart_neg (hk : 0 < k) : wholePart m (-(k : Int)) = m / 10 ^ k := by
  obtain ⟨j, rfl⟩ : ∃ j, k = j + 1 := ⟨k - 1, by omega⟩
  rfl

theorem overflows_neg (hk : 0 < k) : overflows m (-(k : Int)) = decide (overflow * 10 ^ k ≤ m) := by
  obtain ⟨j, rfl⟩ : ∃ j, k = j + 1 := ⟨k - 1, by omega⟩
  rfl

theorem underflows_neg (hk : 0 < k) :
    underflows m (-(k : Int)) = decide (m * 2 ^ 1075 ≤ 10 ^ k) := by
  obtain ⟨j, rfl⟩ : ∃ j, k = j + 1 := ⟨k - 1, by omega⟩
  rfl

/-- The last digit of a canonical decimal makes it no integer. -/
theorem canonical_not_whole (hfp : Digits fp) (hne : fp ≠ []) (hlast : fp.getLast? ≠ some '0') :
    isWhole (valueOf (ip ++ fp)) (-(fp.length : Int)) = false := by
  have hrest := valueOf_last hfp hne hlast
  rw [isWhole_neg (List.length_pos_of_ne_nil hne), valueOf_append, Nat.mul_add_mod,
    Nat.mod_eq_of_lt (valueOf_lt hfp)]
  exact decide_eq_false (by omega)

/-- A number with the point where `str` uses no exponent is not small. -/
theorem le_of_pointAt (hm : 0 < m) (h : -4 < pointAt m (-(k : Int))) : 10 ^ k ≤ m * 10 ^ 4 := by
  unfold pointAt at h
  rw [if_neg (by omega)] at h
  by_contra hlt
  have hk : 4 < k := by
    have hpow : 10 ^ 4 < 10 ^ k := by omega
    exact (Nat.pow_lt_pow_iff_right (by omega)).mp hpow
  have hsplit : 10 ^ k = 10 ^ (k - 4) * 10 ^ 4 := by rw [← Nat.pow_add, show k - 4 + 4 = k by omega]
  have hbelow : m < 10 ^ (k - 4) := by omega
  have hlen := (Nat.length_toDigits_le_iff (by omega) (by omega)).mpr hbelow
  omega

/-- A canonical decimal is in the range of binary64. -/
theorem ofDecimal_canonical (hip : Digits ip) (hfp : Digits fp) (hne : fp ≠ [])
    (h : Canonical ip fp) (neg : Bool) :
    ofDecimal neg (valueOf (ip ++ fp)) (-(fp.length : Int)) =
      .fin neg (valueOf (ip ++ fp)) (-(fp.length : Int)) := by
  have hpos := List.length_pos_of_ne_nil hne
  have hbig : 10 ^ 16 ≤ overflow := by decide +kernel
  have hbelow : valueOf (ip ++ fp) < 10 ^ 16 * 10 ^ fp.length := by
    have hlt := valueOf_lt (digits_append.mpr ⟨hip, hfp⟩)
    rw [List.length_append, Nat.pow_add] at hlt
    exact Nat.lt_of_lt_of_le hlt
      (Nat.mul_le_mul_right _ (Nat.pow_le_pow_right (by omega) h.large))
  have hm : 0 < valueOf (ip ++ fp) := by
    have hlast := valueOf_last (digits_append.mpr ⟨hip, hfp⟩) (List.append_ne_nil_of_right_ne_nil ip hne)
      (by rw [List.getLast?_append_of_ne_nil _ hne]; exact h.fraction)
    omega
  have habove : 10 ^ fp.length ≤ valueOf (ip ++ fp) * 10 ^ 4 := by
    refine le_of_pointAt hm ?_
    rcases canonical_point hip hfp hne h with ⟨hpoint, _⟩ | ⟨n, rest, hn, _, _, hpoint, _⟩ <;>
      rw [hpoint] <;> omega
  have hover : overflows (valueOf (ip ++ fp)) (-(fp.length : Int)) = false := by
    rw [overflows_neg hpos]
    have hle := Nat.mul_le_mul_right (10 ^ fp.length) hbig
    exact decide_eq_false (by omega)
  have hunder : underflows (valueOf (ip ++ fp)) (-(fp.length : Int)) = false := by
    have hsmall : 10 ^ 4 < 2 ^ 1075 := by decide +kernel
    have hlt := Nat.mul_lt_mul_of_pos_left hsmall hm
    rw [underflows_neg hpos]
    exact decide_eq_false (by omega)
  unfold ofDecimal
  rw [hover, hunder]
  rfl

/-- The digits of a number: those that are written, and zeros. -/
theorem significant_zeros (hm : 0 < m) : ∃ z, Nat.toDigits 10 m = significant m ++ List.replicate z '0' ∧
    significant m ≠ [] ∧ (significant m).head? ≠ some '0' ∧ (significant m).getLast? ≠ some '0' := by
  have hsplit := @List.rdropWhile_append_rtakeWhile _ isZero (Nat.toDigits 10 m)
  have hzeros : (Nat.toDigits 10 m).rtakeWhile isZero =
      List.replicate ((Nat.toDigits 10 m).rtakeWhile isZero).length '0' :=
    List.eq_replicate_iff.mpr ⟨rfl, fun c hc => isZero_eq (List.mem_rtakeWhile_imp hc)⟩
  have hdigits : significant m = (Nat.toDigits 10 m).rdropWhile isZero := by
    unfold significant
    rw [if_neg (by omega)]
  rw [hzeros, ← hdigits] at hsplit
  have hne : significant m ≠ [] := by
    intro hnil
    rw [hnil, List.nil_append] at hsplit
    have hvalue := valueOf_toDigits m
    have hnone := @valueOf_zeros [] ((Nat.toDigits 10 m).rtakeWhile isZero).length
    rw [List.append_nil, hsplit, hvalue] at hnone
    have hzero : valueOf [] = 0 := rfl
    omega
  refine ⟨_, hsplit.symm, hne, fun hhead => ?_, fun hlast => ?_⟩
  · have hhead' := head_toDigits hm
    rw [← hsplit, List.head?_append_of_ne_nil _ hne] at hhead'
    exact hhead' hhead
  · rw [hdigits] at hne hlast
    have hnot := List.rdropWhile_last_not isZero _ hne
    rw [List.getLast?_eq_some_getLast hne] at hlast
    rw [Option.some.inj hlast] at hnot
    exact hnot rfl

/-- A number that is no integer has digits after the point. -/
theorem pointAt_lt (hk : 0 < k) (hw : isWhole m (-(k : Int)) = false) :
    0 < m ∧ pointAt m (-(k : Int)) < (significant m).length := by
  rw [isWhole_neg hk] at hw
  have hmod := of_decide_eq_false hw
  have hm : 0 < m := by
    by_contra hzero
    have hm0 : m = 0 := by omega
    rw [hm0, Nat.zero_mod] at hmod
    exact hmod rfl
  refine ⟨hm, ?_⟩
  obtain ⟨z, hsplit, -, -, -⟩ := significant_zeros hm
  have hz : z < k := by
    by_contra hge
    have hvalue := valueOf_toDigits m
    have hnone := @valueOf_zeros [] z
    rw [List.append_nil] at hnone
    rw [hsplit, valueOf_append, List.length_replicate, hnone] at hvalue
    have hpow : 10 ^ z = 10 ^ k * 10 ^ (z - k) := by rw [← Nat.pow_add, show k + (z - k) = z by omega]
    have hzero : valueOf [] = 0 := rfl
    rw [hzero, Nat.add_zero, hpow, Nat.mul_assoc] at hvalue
    rw [← hvalue, Nat.mul_mod_right] at hmod
    exact hmod rfl
  have hlen := congrArg List.length hsplit
  rw [List.length_append, List.length_replicate] at hlen
  unfold pointAt
  rw [if_neg (by omega)]
  omega

/-- **What is written with a point and no exponent is canonical.** -/
theorem canonical_of_reprDecimal (hk : 0 < k) (hw : isWhole m (-(k : Int)) = false)
    (hip : Digits ip) (hfp : Digits fp) (h : reprDecimal m (-(k : Int)) = ip ++ '.' :: fp) :
    Canonical ip fp := by
  obtain ⟨hm, hlt⟩ := pointAt_lt hk hw
  obtain ⟨z, hsplit, hne, hhead, hlast⟩ := significant_zeros hm
  have hdigits : Digits (significant m) := by
    have hall := digits_toDigits m
    rw [hsplit] at hall
    exact (digits_append.mp hall).1
  unfold reprDecimal at h
  generalize pointAt m (-(k : Int)) = point at h hlt
  split at h
  · next hrange =>
    unfold positional at h
    by_cases hpoint : point ≤ 0
    · rw [if_pos hpoint] at h
      have hzero : Digits ['0'] := by
        intro c hc
        rw [List.mem_singleton.mp hc]
        rfl
      obtain ⟨rfl, rfl⟩ := split_point hzero hip h
      refine ⟨⟨nofun, fun _ => rfl⟩, ?_, fun _ hpre => ?_, by decide⟩
      · rw [List.getLast?_append_of_ne_nil _ hne]
        exact hlast
      · -- four zeros reach the first digit, which is none
        obtain ⟨n, hn⟩ : ∃ n, (-point).toNat + (n + 1) = 4 := ⟨3 - (-point).toNat, by omega⟩
        obtain ⟨t, ht⟩ := hpre
        have hfour : "0000".toList = List.replicate (-point).toNat '0' ++ List.replicate (n + 1) '0' := by
          rw [List.replicate_append_replicate, hn]
          rfl
        rw [hfour, List.append_assoc] at ht
        rw [← List.append_cancel_left ht] at hhead
        exact hhead rfl
    · rw [if_neg hpoint, if_neg (by omega)] at h
      have htake : Digits ((significant m).take point.toNat) :=
        fun c hc => hdigits c (List.mem_of_mem_take hc)
      obtain ⟨rfl, rfl⟩ := split_point htake hip h
      have hpos : 0 < point.toNat := by omega
      have hhead' : ((significant m).take point.toNat).head? ≠ some '0' := by
        rw [List.head?_take, if_neg (by omega)]
        exact hhead
      refine ⟨noLeadingZero_of_head ?_ hhead', ?_, fun hz => ?_, ?_⟩
      · intro hnil
        rcases List.take_eq_nil_iff.mp hnil with hzero | hnil
        · omega
        · exact hne hnil
      · rw [List.getLast?_drop, if_neg (by omega)]
        exact hlast
      · rw [hz] at hhead'
        exact absurd rfl hhead'
      · rw [List.length_take]
        omega
  · have he : 'e' ∈ ip ++ '.' :: fp := by
      rw [← h]
      unfold scientific
      exact List.mem_append_right _ List.mem_cons_self
    rcases List.mem_append.mp he with he | he
    · cases hip _ he
    · rcases List.mem_cons.mp he with he | he
      · simp at he
      · cases hfp _ he

/-- A float is never written with digits only. -/
theorem not_digits_reprDecimal (e : Int) : ¬ Digits (reprDecimal m e) := by
  have hpoint : ∀ ds : List Char, '.' ∈ ds → ¬ Digits ds := by
    intro ds hmem h
    cases h _ hmem
  have hexp : ∀ ds : List Char, 'e' ∈ ds → ¬ Digits ds := by
    intro ds hmem h
    cases h _ hmem
  unfold reprDecimal
  split
  · refine hpoint _ ?_
    unfold positional
    split
    · exact List.mem_cons_of_mem _ List.mem_cons_self
    · split
      · exact List.mem_append_right _ (List.mem_append_right _ List.mem_cons_self)
      · exact List.mem_append_right _ List.mem_cons_self
  · exact hexp _ (List.mem_append_right _ List.mem_cons_self)

end Writing

end PyText
