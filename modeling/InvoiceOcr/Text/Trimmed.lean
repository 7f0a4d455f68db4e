/-
  File:      InvoiceOcr/Text/Trimmed.lean
  Subject:   FLOATS WITHOUT A NEEDLESS FRACTION: `str(x).rstrip("0").rstrip(".")`. Nothing here names
             a program.

  * `reprDecimal_mul_pow` -- the same number with zeros behind its digits is written the same;
  * `trimmed_whole` -- a whole number is written as an integer; `trimmed_canonical`;
  * `reprDecimal_point` -- in the range of `str` a fraction has a point, and no exponent;
  * **`reprDecimal_exponent`** -- below a ten-thousandth there is one, and trimming leaves it.
-/
import InvoiceOcr.Text.Float

namespace PyText

/-- `s.rstrip("0").rstrip(".")`. -/
def trimmed (s : List Char) : List Char := (s.rdropWhile isZero).rdropWhile fun c => c = '.'

section Trimmed

variable {s ds ip fp : List Char} {c : Char} {m k : Nat}

/-! ## 1. What is trimmed -/

theorem mem_rdropWhile {p : Char → Bool} (hc : p c = false) (h : c ∈ s) : c ∈ s.rdropWhile p := by
  rw [← @List.rdropWhile_append_rtakeWhile _ p s] at h
  rcases List.mem_append.mp h with h | h
  · exact h
  · have htrue := List.mem_rtakeWhile_imp h
    rw [hc] at htrue
    cases htrue

theorem mem_trimmed (hzero : c ≠ '0') (hpoint : c ≠ '.') : c ∈ trimmed s ↔ c ∈ s := by
  constructor
  · exact fun h => (List.rdropWhile_prefix _ s).subset ((List.rdropWhile_prefix _ _).subset h)
  · exact fun h => mem_rdropWhile (decide_eq_false hpoint) (mem_rdropWhile (decide_eq_false hzero) h)

/-- A text that ends in a digit other than zero is left as it is. -/
theorem trimmed_eq_self (h : ∀ c, s.getLast? = some c → c ≠ '0' ∧ c ≠ '.') : trimmed s = s := by
  have hlast : ∀ hne : s ≠ [], s.getLast hne ≠ '0' ∧ s.getLast hne ≠ '.' :=
    fun hne => h _ (List.getLast?_eq_some_getLast hne)
  have hzeros : s.rdropWhile isZero = s :=
    List.rdropWhile_eq_self_iff.mpr fun hne hz => (hlast hne).1 (isZero_eq hz)
  unfold trimmed
  rw [hzeros, List.rdropWhile_eq_self_iff]
  exact fun hne hp => (hlast hne).2 (of_decide_eq_true hp)

/-! ## 2. Whole numbers -/

theorem digits_zeros (k : Nat) : Digits (List.replicate k '0') := by
  intro c hc
  rw [(List.mem_replicate.mp hc).2]
  rfl

theorem toDigits_mul_pow (hm : 0 < m) :
    Nat.toDigits 10 (m * 10 ^ k) = Nat.toDigits 10 m ++ List.replicate k '0' := by
  rw [← toDigits_append hm (digits_zeros k), Nat.ofDigitChars_replicate_zero, Nat.mul_comm]

theorem significant_mul_pow (hm : 0 < m) : significant (m * 10 ^ k) = significant m := by
  have hpos : 0 < m * 10 ^ k := Nat.mul_pos hm (Nat.pow_pos (by omega))
  have hzeros : ∀ c ∈ List.replicate k '0', isZero c = true := by
    intro c hc
    rw [(List.mem_replicate.mp hc).2]
    rfl
  unfold significant
  rw [if_neg (by omega), if_neg (by omega), toDigits_mul_pow hm]
  unfold List.rdropWhile
  rw [List.reverse_append, List.reverse_replicate, List.dropWhile_append_of_pos hzeros]

/-- **Zeros behind the digits are not written.** -/
theorem reprDecimal_mul_pow (hm : 0 < m) : reprDecimal (m * 10 ^ k) (-(k : Int)) = reprDecimal m 0 := by
  have hpos : 0 < m * 10 ^ k := Nat.mul_pos hm (Nat.pow_pos (by omega))
  have hpoint : pointAt (m * 10 ^ k) (-(k : Int)) = pointAt m 0 := by
    unfold pointAt
    rw [if_neg (by omega), if_neg (by omega), toDigits_mul_pow hm, List.length_append,
      List.length_replicate]
    omega
  unfold reprDecimal
  rw [hpoint, significant_mul_pow hm]

theorem length_toDigits_pos (m : Nat) : 0 < (Nat.toDigits 10 m).length :=
  List.length_pos_of_ne_nil Nat.toDigits_ne_nil

/-- A whole number is trimmed to its digits. -/
theorem trimmed_whole (hm : m < 10 ^ 16) : trimmed (reprDecimal m 0) = Nat.toDigits 10 m := by
  by_cases hzero : m = 0
  · rw [hzero]
    rfl
  have hpos := length_toDigits_pos m
  have hlen := (Nat.length_toDigits_le_iff (by omega) (by omega)).mpr hm
  have hpoint : pointAt m 0 = (Nat.toDigits 10 m).length := by
    unfold pointAt
    rw [if_neg hzero, Int.add_zero]
  obtain ⟨z, hsplit, -, -, -⟩ := @significant_zeros m (by omega)
  have hlength := congrArg List.length hsplit
  rw [List.length_append, List.length_replicate] at hlength
  have hrepr : reprDecimal m 0 = Nat.toDigits 10 m ++ ['.', '0'] := by
    unfold reprDecimal positional
    rw [hpoint, if_pos (by omega), if_neg (by omega), Int.toNat_natCast, if_pos (by omega),
      show (Nat.toDigits 10 m).length - (significant m).length = z by omega, ← List.append_assoc,
      ← hsplit]
  have hdigit : ∀ hne : Nat.toDigits 10 m ≠ [], ¬ (decide ((Nat.toDigits 10 m).getLast hne = '.')) = true := by
    intro hne hdot
    have hlast := digits_toDigits m _ (List.getLast_mem hne)
    rw [of_decide_eq_true hdot] at hlast
    cases hlast
  unfold trimmed
  rw [hrepr, show Nat.toDigits 10 m ++ ['.', '0'] = (Nat.toDigits 10 m ++ ['.']) ++ ['0'] by simp,
    List.rdropWhile_concat_pos _ _ _ rfl, List.rdropWhile_concat_neg _ _ _ (by decide),
    List.rdropWhile_concat_pos _ _ _ rfl]
  exact List.rdropWhile_eq_self_iff.mpr hdigit

/-! ## 3. Fractions -/

theorem trimmed_canonical (hfp : Digits fp) (hne : fp ≠ []) (h : Canonical ip fp) :
    trimmed (ip ++ '.' :: fp) = ip ++ '.' :: fp := by
  refine trimmed_eq_self fun c hc => ?_
  rw [List.getLast?_append_of_ne_nil _ (List.cons_ne_nil _ _), List.getLast?_cons,
    List.getLast?_eq_some_getLast hne] at hc
  have hlast : fp.getLast? = some c := (List.getLast?_eq_some_getLast hne).trans hc
  refine ⟨fun hzero => h.fraction (hzero ▸ hlast), fun hdot => ?_⟩
  have hdigit := last_digits hfp hlast
  rw [hdot] at hdigit
  cases hdigit

theorem digits_significant (hm : 0 < m) : Digits (significant m) := by
  obtain ⟨z, hsplit, -, -, -⟩ := significant_zeros hm
  have hall := digits_toDigits m
  rw [hsplit] at hall
  exact (digits_append.mp hall).1

/-- **In the range of `str` a fraction is written with a point.** -/
theorem reprDecimal_point (hk : 0 < k) (hw : isWhole m (-(k : Int)) = false)
    (hrange : -4 < pointAt m (-(k : Int)) ∧ pointAt m (-(k : Int)) ≤ 16) :
    ∃ ip fp, reprDecimal m (-(k : Int)) = ip ++ '.' :: fp ∧ Digits ip ∧ Digits fp ∧ fp ≠ [] ∧
      Canonical ip fp := by
  obtain ⟨hm, hlt⟩ := pointAt_lt hk hw
  have hdigits := digits_significant hm
  obtain ⟨-, -, hne, -, -⟩ := significant_zeros hm
  have hwritten : ∃ ip fp, reprDecimal m (-(k : Int)) = ip ++ '.' :: fp ∧ Digits ip ∧ Digits fp ∧
      fp ≠ [] := by
    unfold reprDecimal positional
    rw [if_pos hrange]
    by_cases hpoint : pointAt m (-(k : Int)) ≤ 0
    · rw [if_pos hpoint]
      exact ⟨['0'], _, rfl, digits_zeros 1, digits_append.mpr ⟨digits_zeros _, hdigits⟩,
        List.append_ne_nil_of_right_ne_nil _ hne⟩
    · rw [if_neg hpoint, if_neg (by omega)]
      refine ⟨_, _, rfl, fun c hc => hdigits c (List.mem_of_mem_take hc),
        fun c hc => hdigits c (List.mem_of_mem_drop hc), ?_⟩
      rw [Ne, List.drop_eq_nil_iff]
      omega
  obtain ⟨ip, fp, hrepr, hip, hfp, hfne⟩ := hwritten
  exact ⟨ip, fp, hrepr, hip, hfp, hfne, canonical_of_reprDecimal hk hw hip hfp hrepr⟩

/-! ## 4. Exponents -/

/-- Where the exponent begins. -/
theorem pointAt_le_iff (hm : 0 < m) : pointAt m (-(k : Int)) ≤ -4 ↔ m * 10 ^ 4 < 10 ^ k := by
  constructor
  · intro h
    unfold pointAt at h
    rw [if_neg (by omega)] at h
    have hpos := length_toDigits_pos m
    have hbelow := (Nat.length_toDigits_le_iff (by omega : 1 < 10) (by omega : 0 < k - 4)).mp
      (by omega : (Nat.toDigits 10 m).length ≤ k - 4)
    rw [show k = (k - 4) + 4 by omega, Nat.pow_add]
    exact Nat.mul_lt_mul_of_pos_right hbelow (by omega)
  · intro h
    by_contra hnot
    have hge := le_of_pointAt hm (k := k) (by omega)
    omega

/-- Below a ten-thousandth: one digit, the others behind a point, and the exponent. -/
theorem reprDecimal_exponent (hm : 0 < m) (h : m * 10 ^ 4 < 10 ^ k) :
    ∃ d rest n, reprDecimal m (-(k : Int)) =
        d :: (if rest = [] then [] else '.' :: rest) ++ 'e' :: '-' :: exponentDigits n ∧
      Digits (d :: rest) ∧ d ≠ '0' ∧ n ≤ k := by
  have hpoint := (pointAt_le_iff hm).mpr h
  have hdigits := digits_significant hm
  obtain ⟨-, -, hne, hhead, -⟩ := significant_zeros hm
  have hlarge : -(k : Int) < pointAt m (-(k : Int)) := by
    have hpos := length_toDigits_pos m
    unfold pointAt
    rw [if_neg (by omega)]
    omega
  unfold reprDecimal scientific
  rw [if_neg (by omega), if_pos (by omega : pointAt m (-(k : Int)) ≤ 0)]
  cases hs : significant m with
  | nil => exact absurd hs hne
  | cons d rest =>
    rw [hs] at hdigits hhead
    refine ⟨d, rest, (pointAt m (-(k : Int)) - 1).natAbs, ?_, hdigits, fun hd => hhead (by rw [hd]; rfl),
      by omega⟩
    cases rest with
    | nil => rfl
    | cons e rest => rfl

theorem digits_exponent (n : Nat) : Digits (exponentDigits n) := by
  unfold exponentDigits
  split
  · intro c hc
    rcases List.mem_cons.mp hc with rfl | hc
    · rfl
    · exact digits_toDigits n c hc
  · exact digits_toDigits n

theorem length_exponent {n : Nat} (hn : n < 100) : (exponentDigits n).length ≤ 2 := by
  unfold exponentDigits
  split
  · next hlt =>
    have hone := (Nat.length_toDigits_le_iff (by omega : 1 < 10) (by omega : 0 < 1)).mpr
      (by omega : n < 10 ^ 1)
    rw [List.length_cons]
    omega
  · exact (Nat.length_toDigits_le_iff (by omega) (by omega)).mpr hn

/-- A fraction of sixteen digits at most has a point, unless it is that small. -/
theorem reprDecimal_fraction (hk : 0 < k) (hw : isWhole m (-(k : Int)) = false) (hlt : m < 10 ^ 16)
    (h : ¬ m * 10 ^ 4 < 10 ^ k) :
    ∃ ip fp, reprDecimal m (-(k : Int)) = ip ++ '.' :: fp ∧ Digits ip ∧ Digits fp ∧ fp ≠ [] ∧
      Canonical ip fp := by
  have hm := (pointAt_lt hk hw).1
  have hlow := mt (pointAt_le_iff hm).mp h
  have hlen := (Nat.length_toDigits_le_iff (by omega) (by omega)).mpr hlt
  refine reprDecimal_point hk hw ⟨by omega, ?_⟩
  unfold pointAt
  rw [if_neg (by omega)]
  omega

/-- Trimmed or not, a fraction is never written with digits only. -/
theorem not_digits_trimmed (hk : 0 < k) (hw : isWhole m (-(k : Int)) = false) (hlt : m < 10 ^ 16) :
    ¬ Digits (trimmed (reprDecimal m (-(k : Int)))) := by
  intro hdigits
  by_cases h : m * 10 ^ 4 < 10 ^ k
  · obtain ⟨d, rest, n, hrepr, -⟩ := reprDecimal_exponent (pointAt_lt hk hw).1 h
    rw [hrepr] at hdigits
    cases hdigits 'e' ((mem_trimmed (by decide) (by decide)).mpr
      (List.mem_append_right _ List.mem_cons_self))
  · obtain ⟨ip, fp, hrepr, -, hfp, hfne, hcanonical⟩ := reprDecimal_fraction hk hw hlt h
    rw [hrepr, trimmed_canonical hfp hfne hcanonical] at hdigits
    cases hdigits '.' (List.mem_append_right _ List.mem_cons_self)

/-- Digits that begin with none but zero, not many of them before the point, are written without an
    exponent. -/
theorem not_exponent (hip : Digits ip) (hne : ip ≠ []) (hhead : ip.head? ≠ some '0')
    (hlen : ip.length ≤ 16) (hfp : Digits fp) :
    'e' ∉ reprFloat (ofDecimal false (valueOf (ip ++ fp)) (-(fp.length : Int))) := by
  have hfixed : ∀ n e, 0 < n → -4 < pointAt n e → pointAt n e ≤ 16 → 'e' ∉ reprDecimal n e := by
    intro n e hn hlow hhigh he
    have hdigits := digits_significant hn
    have hno : ∀ t, Digits t → 'e' ∉ t := fun t ht he => by cases ht _ he
    unfold reprDecimal positional at he
    rw [if_pos ⟨hlow, hhigh⟩] at he
    split at he
    · simp only [List.mem_cons, List.mem_append, List.mem_replicate] at he
      rcases he with he | he | he | he
      · cases he
      · cases he
      · cases he.2
      · exact hno _ hdigits he
    · split at he
      · simp only [List.mem_cons, List.mem_append, List.mem_replicate, List.not_mem_nil] at he
        rcases he with he | he | he | he | he
        · exact hno _ hdigits he
        · cases he.2
        · cases he
        · cases he
        · exact he
      · simp only [List.mem_append, List.mem_cons] at he
        rcases he with he | he | he
        · exact hno _ hdigits (List.mem_of_mem_take he)
        · cases he
        · exact hno _ hdigits (List.mem_of_mem_drop he)
  have hdigits := digits_append.mpr ⟨hip, hfp⟩
  have hlead : NoLeadingZero (ip ++ fp) :=
    noLeadingZero_of_head (List.append_ne_nil_of_left_ne_nil hne fp)
      (by rw [List.head?_append_of_ne_nil _ hne]; exact hhead)
  have htoDigits := toDigits_valueOf hdigits hlead
  have hpos : 0 < valueOf (ip ++ fp) := by
    by_contra hzero
    rw [show valueOf (ip ++ fp) = 0 by omega, Nat.toDigits_zero] at htoDigits
    have hzeros := congrArg List.head? htoDigits
    rw [List.head?_append_of_ne_nil _ hne] at hzeros
    exact hhead hzeros.symm
  have hpoint : pointAt (valueOf (ip ++ fp)) (-(fp.length : Int)) = ip.length := by
    unfold pointAt
    rw [if_neg (by omega), htoDigits, List.length_append]
    omega
  unfold ofDecimal
  split
  · decide
  · split
    · decide
    · exact hfixed _ _ hpos (by omega) (by omega)

/-- Zero, whatever the exponent. -/
theorem ofDecimal_zero (hm : m = 0) (e : Int) : ofDecimal false m e = .fin false 0 0 := by
  have hbig : 10 ^ 16 ≤ overflow := by decide +kernel
  have hover : overflows m e = false := by
    cases e with
    | ofNat k =>
      show decide (overflow ≤ m * 10 ^ k) = false
      rw [hm, Nat.zero_mul]
      exact decide_eq_false (by omega)
    | negSucc k =>
      have hpos : 0 < overflow * 10 ^ (k + 1) := Nat.mul_pos (by omega) (Nat.pow_pos (by omega))
      show decide (overflow * 10 ^ (k + 1) ≤ m) = false
      exact decide_eq_false (by omega)
  have hunder : underflows m e = true := by
    cases e with
    | ofNat k => exact decide_eq_true hm
    | negSucc k =>
      show underflows m (-((k + 1 : Nat) : Int)) = true
      rw [underflows_neg (by omega), hm, Nat.zero_mul]
      exact decide_eq_true (Nat.zero_le _)
  unfold ofDecimal
  rw [hover, hunder]
  rfl

/-- A number of sixteen digits is in the range of binary64. -/
theorem ofDecimal_short (hm : 0 < m) (hlt : m < 10 ^ 16) (hk : k ≤ 16) :
    ofDecimal false m (-(k : Int)) = .fin false m (-(k : Int)) := by
  have hbig : 10 ^ 16 ≤ overflow := by decide +kernel
  have hsmall : 10 ^ 16 < 2 ^ 1075 := by decide +kernel
  have hscale := Nat.pow_le_pow_right (by omega : 0 < 10) hk
  have hpos : 0 < 10 ^ k := Nat.pow_pos (by omega)
  have hover : overflows m (-(k : Int)) = false := by
    rcases Nat.eq_zero_or_pos k with rfl | hk'
    · show decide (overflow ≤ m * 1) = false
      exact decide_eq_false (by omega)
    · rw [overflows_neg hk']
      have hle := Nat.mul_le_mul_left overflow hpos
      exact decide_eq_false (by omega)
  have hunder : underflows m (-(k : Int)) = false := by
    rcases Nat.eq_zero_or_pos k with rfl | hk'
    · show decide (m = 0) = false
      exact decide_eq_false (by omega)
    · rw [underflows_neg hk']
      have hle := Nat.mul_le_mul_right (2 ^ 1075) hm
      exact decide_eq_false (by omega)
  unfold ofDecimal
  rw [hover, hunder]
  rfl

end Trimmed

end PyText
