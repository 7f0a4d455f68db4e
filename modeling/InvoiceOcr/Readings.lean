/-
  File:      InvoiceOcr/Readings.lean
  Subject:   THE TWO READINGS OF A QUANTITY. The pipeline and the evaluation script each have a
             `_normalize_quantity`; here are the printed quantities, of sixteen characters at most, that
             the script still reads as the label after the pipeline has rewritten them.

  * `script_printed` -- a unit means nothing to the script;
  * **`sameQuantity_bare_iff`** -- without a unit: all, but what lies between 0 and a ten-thousandth;
  * **`sameQuantity_suffixed_iff`** -- with a unit: all without a comma, and zero.
-/
import InvoiceOcr.Evaluation
import InvoiceOcr.Quantity
import InvoiceOcr.Text.Trimmed

namespace InvoiceOcr

namespace Eval

open PyJson PyText

/-! ## 1. What the script reads -/

/-- The end of the script's `_normalize_quantity`. -/
def reading (s : Str) : Str :=
  match parseFloat s with
  | some x => trimmed (reprFloat x)
  | none => s

/-- The quantity is a number between 0 and a ten-thousandth. -/
def Tiny (q : Str) : Prop :=
  ∃ m k : Nat, readDecimal (commasAsPoints q) = some (m, -(k : Int)) ∧ 0 < m ∧ m * 10 ^ 4 < 10 ^ k

section Script

variable {txt : Texts} {x q u ip fp : Str} {m k : Nat}

theorem filter_lower (hlaws : TextLaws txt) (s : Str) :
    (txt.lower s).filter isQuantityChar = s.filter isQuantityChar := by
  have hmark : ∀ c, isQuantityChar c = true → isMark c = true := by
    intro c hc
    unfold isQuantityChar at hc
    unfold isMark
    rw [hc]
    rfl
  have hmarks := congrArg (List.filter isQuantityChar) (hlaws.lower_marks s)
  rwa [filter_of_imp hmark, filter_of_imp hmark] at hmarks

/-- Of a text, the script reads the digits, points and commas. -/
theorem script_reading (hlaws : TextLaws txt) (hne : x.filter isQuantityChar ≠ []) :
    normalizeQuantity txt (txt.lower (strip x)) = reading (commasAsPoints (x.filter isQuantityChar)) := by
  have hstrip : ∀ s : Str, (strip s).filter isQuantityChar = s.filter isQuantityChar := by
    intro s
    refine filter_stripBy fun c hc => ?_
    by_contra hq
    have hmark : isMark c = true := by
      unfold isMark
      unfold isQuantityChar at hq
      rw [Bool.not_eq_false] at hq
      rw [hq]
      rfl
    rw [not_space_of_mark hmark] at hc
    cases hc
  have hsome : txt.lower (strip x) ≠ [] := by
    intro hnil
    rw [← hstrip, (hlaws.lower_nil _).mp hnil] at hne
    exact hne rfl
  unfold normalizeQuantity reading
  rw [if_neg hsome]
  simp only [filter_lower hlaws, hstrip]
  rfl

/-- **A unit means nothing to the script.** -/
theorem script_printed (hlaws : TextLaws txt) (hq : Printed q) (hu : u = [] ∨ UnitSuffix u) :
    normalizeQuantity txt (txt.lower (strip (q ++ u))) = reading (commasAsPoints q) := by
  obtain ⟨⟨d, hd, -⟩, -, hchars⟩ := printed_chars hq
  have hkept : q.filter isQuantityChar = q := by
    refine List.filter_eq_self.mpr fun c hc => ?_
    unfold isQuantityChar
    rcases hchars c hc with hdigit | rfl | rfl
    · rw [isDecimal_of_isDigit hdigit]
      rfl
    · rfl
    · rfl
  have hunit : u.filter isQuantityChar = [] := by
    rcases hu with rfl | ⟨n, w, rfl, -, hletters⟩
    · rfl
    · refine List.filter_eq_nil_iff.mpr fun c hc => ?_
      rcases List.mem_append.mp hc with hc | hc
      · rw [(List.mem_replicate.mp hc).2]
        decide
      · obtain ⟨-, hdecimal, hpoint, hcomma, -⟩ := letter_class (hletters c hc)
        unfold isQuantityChar
        rw [hdecimal, decide_eq_false hpoint, decide_eq_false hcomma]
        nofun
  have hne : (q ++ u).filter isQuantityChar ≠ [] := by
    rw [List.filter_append, hkept]
    intro hnil
    rw [(List.append_eq_nil_iff.mp hnil).1] at hd
    cases hd
  rw [script_reading hlaws hne, List.filter_append, hkept, hunit, List.append_nil]

/-- A whole number is read as its digits. -/
theorem reading_whole (hip : Digits ip) (hne : ip ≠ []) (hlt : valueOf ip < 10 ^ 16) :
    reading ip = Nat.toDigits 10 (valueOf ip) := by
  have hread : parseFloat ip = some (ofDecimal false (valueOf ip) 0) := by
    rw [parseFloat_decimal hne fun d hd => Or.inl (hip d hd), readDecimal_whole hip hne]
    rfl
  unfold reading
  rw [hread]
  by_cases hzero : valueOf ip = 0
  · rw [ofDecimal_zero hzero, hzero]
    rfl
  · have hshort := @ofDecimal_short (valueOf ip) 0 (by omega) hlt (by omega)
    rw [Int.natCast_zero, Int.neg_zero] at hshort
    simp only [hshort]
    exact trimmed_whole hlt

theorem reading_point (hip : Digits ip) (hfp : Digits fp) (hne : ip ++ fp ≠ []) :
    reading (ip ++ '.' :: fp) =
      trimmed (reprFloat (ofDecimal false (valueOf (ip ++ fp)) (-(fp.length : Int)))) := by
  have hchars : ∀ d ∈ ip ++ '.' :: fp, d.isDigit = true ∨ d = '.' := by
    intro d hd
    rcases List.mem_append.mp hd with hd | hd
    · exact Or.inl (hip d hd)
    · rcases List.mem_cons.mp hd with rfl | hd
      · exact Or.inr rfl
      · exact Or.inl (hfp d hd)
  unfold reading
  rw [parseFloat_decimal (List.append_ne_nil_of_right_ne_nil _ (List.cons_ne_nil _ _)) hchars,
    readDecimal_point hip hfp hne]
  rfl

theorem reading_fraction (hip : Digits ip) (hne : ip ≠ []) (hfp : Digits fp) (hfne : fp ≠ [])
    (hlt : valueOf (ip ++ fp) < 10 ^ 16) (hk : fp.length ≤ 16) :
    reading (ip ++ '.' :: fp) =
      if isWhole (valueOf (ip ++ fp)) (-(fp.length : Int)) then
        Nat.toDigits 10 (valueOf (ip ++ fp) / 10 ^ fp.length)
      else trimmed (reprDecimal (valueOf (ip ++ fp)) (-(fp.length : Int))) := by
  rw [reading_point hip hfp (List.append_ne_nil_of_left_ne_nil hne fp)]
  have hpos := List.length_pos_of_ne_nil hfne
  generalize valueOf (ip ++ fp) = m at hlt
  by_cases hzero : m = 0
  · rw [ofDecimal_zero hzero, hzero, isWhole_neg hpos, Nat.zero_mod, Nat.zero_div]
    rfl
  rw [ofDecimal_short (by omega) hlt hk]
  show trimmed (reprDecimal m _) = _
  split
  · next hw =>
    rw [isWhole_neg hpos] at hw
    obtain ⟨n, hn⟩ := Nat.dvd_of_mod_eq_zero (of_decide_eq_true hw)
    have hscale : 0 < 10 ^ fp.length := Nat.pow_pos (by omega)
    have hnpos : 0 < n := by
      by_contra h
      rw [show n = 0 by omega, Nat.mul_zero] at hn
      exact hzero hn
    have hle := Nat.le_mul_of_pos_left n hscale
    rw [hn, Nat.mul_div_cancel_left n hscale, Nat.mul_comm, reprDecimal_mul_pow hnpos]
    exact trimmed_whole (by omega)
  · rfl

/-- What the pipeline makes of a short fraction. -/
theorem normalizeQuantity_short (hip : Digits ip) (hne : ip ≠ []) (hfp : Digits fp) (hfne : fp ≠ [])
    {sep : Char} (hsep : sep = '.' ∨ sep = ',') (hlt : valueOf (ip ++ fp) < 10 ^ 16)
    (hk : fp.length ≤ 16) : InvoiceOcr.normalizeQuantity (ip ++ sep :: fp) =
      .ok (if isWhole (valueOf (ip ++ fp)) (-(fp.length : Int)) then
        Nat.toDigits 10 (valueOf (ip ++ fp) / 10 ^ fp.length)
      else reprDecimal (valueOf (ip ++ fp)) (-(fp.length : Int))) := by
  rw [normalizeQuantity_decimal hip hne hfp hfne hsep]
  have hpos := List.length_pos_of_ne_nil hfne
  generalize valueOf (ip ++ fp) = m at hlt
  by_cases hzero : m = 0
  · rw [ofDecimal_zero hzero, hzero, isWhole_neg hpos, Nat.zero_mod, Nat.zero_div]
    rfl
  rw [ofDecimal_short (by omega) hlt hk]
  show Except.ok (if isWhole m _ = true then intText (wholePart m _ : Int) else _) = _
  rw [wholePart_neg hpos]
  rfl

end Script

/-! ## 2. The quantities that both read alike -/

section Alike

variable {txt : Texts} {x q u ip fp text : Str}

theorem sameQuantity_of_ok (h : InvoiceOcr.normalizeQuantity x = .ok text) (hx : x ≠ []) :
    SameQuantity txt x ↔ text ≠ [] ∧
      normalizeQuantity txt (txt.lower (strip text)) = normalizeQuantity txt (txt.lower (strip x)) := by
  constructor
  · rintro ⟨text', h', hsame⟩
    cases h.symm.trans h'
    exact hsame hx
  · exact fun hsame => ⟨text, h, fun _ => hsame⟩

theorem script_bare (hlaws : TextLaws txt) (hq : Printed q) :
    normalizeQuantity txt (txt.lower (strip q)) = reading (commasAsPoints q) := by
  have h := @script_printed txt q [] hlaws hq (Or.inl rfl)
  rwa [List.append_nil] at h

theorem commasAsPoints_decimal (hip : Digits ip) (hfp : Digits fp) {sep : Char}
    (hsep : sep = '.' ∨ sep = ',') : commasAsPoints (ip ++ sep :: fp) = ip ++ '.' :: fp := by
  have hone : commasAsPoints [sep] = ['.'] := by
    rcases hsep with rfl | rfl
    · rfl
    · rfl
  rw [show ip ++ sep :: fp = ip ++ ([sep] ++ fp) from rfl, commasAsPoints_append,
    commasAsPoints_append, hone, commasAsPoints_digits hip, commasAsPoints_digits hfp]
  rfl

theorem quantityChars_digits {ds : Str} (h : Digits ds) : ds.filter isQuantityChar = ds := by
  refine List.filter_eq_self.mpr fun c hc => ?_
  unfold isQuantityChar
  rw [isDecimal_of_isDigit (h c hc)]
  rfl

/-- **The script loses an exponent**: it reads its digits, and not the letter. -/
theorem exponent_differs (hlaws : TextLaws txt) {m k : Nat} (hm : 0 < m) (hk : k ≤ 16)
    (h : m * 10 ^ 4 < 10 ^ k) :
    normalizeQuantity txt (txt.lower (strip (reprDecimal m (-(k : Int))))) ≠
      trimmed (reprDecimal m (-(k : Int))) := by
  obtain ⟨d, rest, n, hrepr, hdigits, hd, hn⟩ := reprDecimal_exponent hm h
  have hexp := digits_exponent n
  have hlen := length_exponent (show n < 100 by omega)
  obtain ⟨hone, hrest⟩ : Digits [d] ∧ Digits rest := digits_append.mp hdigits
  have hletters : ('e' :: '-' :: exponentDigits n).filter isQuantityChar = exponentDigits n :=
    quantityChars_digits hexp
  intro heq
  have he : 'e' ∈ normalizeQuantity txt (txt.lower (strip (reprDecimal m (-(k : Int))))) := by
    rw [heq, mem_trimmed (by decide) (by decide), hrepr]
    exact List.mem_append_right _ List.mem_cons_self
  rw [hrepr] at he
  by_cases hnil : rest = []
  · have hkept : (d :: (if rest = [] then [] else '.' :: rest) ++
        'e' :: '-' :: exponentDigits n).filter isQuantityChar = d :: exponentDigits n := by
      rw [if_pos hnil, List.filter_append, quantityChars_digits hone, hletters]
      rfl
    have hall : Digits (d :: exponentDigits n) := digits_append.mpr ⟨hone, hexp⟩
    have hvalue : valueOf (d :: exponentDigits n) < 10 ^ 16 := by
      refine Nat.lt_of_lt_of_le (valueOf_lt hall) (Nat.pow_le_pow_right (by omega) ?_)
      rw [List.length_cons]
      omega
    rw [script_reading hlaws (by rw [hkept]; exact List.cons_ne_nil _ _), hkept,
      commasAsPoints_digits hall, reading_whole hall (List.cons_ne_nil _ _) hvalue] at he
    cases digits_toDigits _ _ he
  · have hkept : (d :: (if rest = [] then [] else '.' :: rest) ++
        'e' :: '-' :: exponentDigits n).filter isQuantityChar =
          [d] ++ '.' :: (rest ++ exponentDigits n) := by
      rw [if_neg hnil, List.filter_append, hletters]
      show ([d] ++ (['.'] ++ rest)).filter isQuantityChar ++ _ = _
      rw [List.filter_append, List.filter_append, quantityChars_digits hone, quantityChars_digits hrest]
      exact List.append_assoc ..
    have hfraction : Digits (rest ++ exponentDigits n) := digits_append.mpr ⟨hrest, hexp⟩
    rw [script_reading hlaws (by rw [hkept]; exact List.cons_ne_nil _ _), hkept,
      commasAsPoints_decimal hone hfraction (Or.inl rfl),
      reading_point hone hfraction (List.cons_ne_nil _ _), mem_trimmed (by decide) (by decide)] at he
    exact not_exponent hone (List.cons_ne_nil _ _) (fun hhead => hd (Option.some.inj hhead))
      (by rw [List.length_singleton]; omega) hfraction he

/-- A number that `str` writes with a point is read as it is written. -/
theorem point_same (hlaws : TextLaws txt) {m k : Nat} (hk : 0 < k)
    (hw : isWhole m (-(k : Int)) = false) (hlt : m < 10 ^ 16) (h : ¬ m * 10 ^ 4 < 10 ^ k) :
    normalizeQuantity txt (txt.lower (strip (reprDecimal m (-(k : Int))))) =
      trimmed (reprDecimal m (-(k : Int))) := by
  obtain ⟨ip, fp, hrepr, hip, hfp, hfne, hcanonical⟩ := reprDecimal_fraction hk hw hlt h
  have hne := hcanonical.whole.1
  rw [hrepr, script_bare hlaws (.decimal hip hne hfp hfne (Or.inl rfl)),
    commasAsPoints_decimal hip hfp (Or.inl rfl),
    reading_point hip hfp (List.append_ne_nil_of_left_ne_nil hne fp),
    ofDecimal_canonical hip hfp hfne hcanonical]
  exact congrArg trimmed (reprDecimal_canonical hip hfp hfne hcanonical)

/-- A whole number is read as the pipeline writes it. -/
theorem whole_same (hlaws : TextLaws txt) {n : Nat} (hn : n < 10 ^ 16) :
    normalizeQuantity txt (txt.lower (strip (Nat.toDigits 10 n))) = Nat.toDigits 10 n := by
  have hdigits := digits_toDigits n
  rw [script_bare hlaws (.whole hdigits Nat.toDigits_ne_nil), commasAsPoints_digits hdigits,
    reading_whole hdigits Nat.toDigits_ne_nil (by rw [valueOf_toDigits]; exact hn), valueOf_toDigits]

/-- Sixteen characters hold sixteen digits. -/
theorem short_value (hip : Digits ip) (hfp : Digits fp) {sep : Char}
    (hlen : (ip ++ sep :: fp).length ≤ 16) : valueOf (ip ++ fp) < 10 ^ 16 ∧ fp.length ≤ 16 := by
  rw [List.length_append, List.length_cons] at hlen
  have hlt := valueOf_lt (digits_append.mpr ⟨hip, hfp⟩)
  rw [List.length_append] at hlt
  exact ⟨Nat.lt_of_lt_of_le hlt (Nat.pow_le_pow_right (by omega) (by omega)), by omega⟩

theorem tiny_whole (hip : Digits ip) (hne : ip ≠ []) : ¬ Tiny ip := by
  rintro ⟨m, k, hread, hm, hlt⟩
  rw [commasAsPoints_digits hip, readDecimal_whole hip hne] at hread
  simp only [Option.some.injEq, Prod.mk.injEq] at hread
  have hk : k = 0 := by omega
  rw [hk, Nat.pow_zero] at hlt
  omega

theorem tiny_decimal_iff (hip : Digits ip) (hne : ip ≠ []) (hfp : Digits fp) {sep : Char}
    (hsep : sep = '.' ∨ sep = ',') : Tiny (ip ++ sep :: fp) ↔
      0 < valueOf (ip ++ fp) ∧ valueOf (ip ++ fp) * 10 ^ 4 < 10 ^ fp.length := by
  have hread := readDecimal_point hip hfp (List.append_ne_nil_of_left_ne_nil hne fp)
  unfold Tiny
  rw [commasAsPoints_decimal hip hfp hsep, hread]
  constructor
  · rintro ⟨m, k, heq, hm, hlt⟩
    simp only [Option.some.injEq, Prod.mk.injEq] at heq
    obtain ⟨rfl, heq⟩ := heq
    rw [show fp.length = k by omega]
    exact ⟨hm, hlt⟩
  · exact fun h => ⟨_, _, rfl, h⟩

/-- **Without a unit.** The two agree on every printed quantity that is no number between 0 and a
    ten-thousandth. -/
theorem sameQuantity_bare_iff (hlaws : TextLaws txt) (hq : Printed q) (hlen : q.length ≤ 16) :
    SameQuantity txt q ↔ ¬ Tiny q := by
  cases hq with
  | whole hip hne =>
    have hvalue : valueOf q < 10 ^ 16 :=
      Nat.lt_of_lt_of_le (valueOf_lt hip) (Nat.pow_le_pow_right (by omega) hlen)
    have hbig : 10 ^ 16 ≤ overflow := by decide +kernel
    rcases normalizeQuantity_whole hip hne with ⟨hover, _⟩ | ⟨_, hnorm⟩
    · omega
    · rw [sameQuantity_of_ok hnorm hne, whole_same hlaws hvalue,
        script_bare hlaws (.whole hip hne), commasAsPoints_digits hip, reading_whole hip hne hvalue]
      exact iff_of_true ⟨Nat.toDigits_ne_nil, rfl⟩ (tiny_whole hip hne)
  | @decimal ip fp sep hip hne hfp hfne hsep =>
    obtain ⟨hvalue, hk⟩ := short_value hip hfp hlen
    have hpos := List.length_pos_of_ne_nil hfne
    rw [sameQuantity_of_ok (normalizeQuantity_short hip hne hfp hfne hsep hvalue hk)
        (List.append_ne_nil_of_left_ne_nil hne _),
      script_bare hlaws (.decimal hip hne hfp hfne hsep), commasAsPoints_decimal hip hfp hsep,
      reading_fraction hip hne hfp hfne hvalue hk, tiny_decimal_iff hip hne hfp hsep]
    generalize valueOf (ip ++ fp) = m at hvalue
    split
    · next hw =>
      -- a multiple of 10 ^ k that is positive is no fraction at all
      have hsmall : m / 10 ^ fp.length < 10 ^ 16 := Nat.lt_of_le_of_lt (Nat.div_le_self _ _) hvalue
      refine iff_of_true ⟨Nat.toDigits_ne_nil, whole_same hlaws hsmall⟩ fun htiny => ?_
      rw [isWhole_neg hpos] at hw
      have hmod := of_decide_eq_true hw
      rw [Nat.mod_eq_of_lt (by omega)] at hmod
      omega
    · next hw =>
      have hw' : isWhole m (-(fp.length : Int)) = false := eq_false_of_ne_true hw
      have hm := (pointAt_lt hpos hw').1
      have hsome : reprDecimal m (-(fp.length : Int)) ≠ [] := by
        intro hnil
        have hnot := @not_digits_reprDecimal m (-(fp.length : Int))
        rw [hnil] at hnot
        exact hnot nofun
      by_cases htiny : m * 10 ^ 4 < 10 ^ fp.length
      · exact iff_of_false (fun h => exponent_differs hlaws hm (by omega) htiny h.2)
          fun h => h ⟨hm, htiny⟩
      · exact iff_of_true ⟨hsome, point_same hlaws hpos hw' hvalue htiny⟩ fun h => htiny h.2

/-- The pipeline makes 1e-05 of it, of which the script reads 105. -/
example : Tiny "0,00001".toList := ⟨1, 5, by decide +kernel, by decide, by decide⟩

theorem valueOf_eq_zero_iff {ds : Str} (h : Digits ds) : valueOf ds = 0 ↔ ∀ c ∈ ds, c = '0' := by
  constructor
  · intro hzero c hc
    obtain ⟨s, t, rfl⟩ := List.append_of_mem hc
    have hvalue : valueOf (s ++ ([c] ++ t)) =
        10 ^ ([c] ++ t).length * valueOf s + valueOf ([c] ++ t) := valueOf_append
    have htail : valueOf ([c] ++ t) = 10 ^ t.length * valueOf [c] + valueOf t := valueOf_append
    have hzero' : valueOf (s ++ ([c] ++ t)) = 0 := hzero
    have hpos : 0 < 10 ^ t.length := Nat.pow_pos (by omega)
    have hone : valueOf [c] = c.toNat - 48 := by
      unfold valueOf
      rw [Nat.ofDigitChars_cons, Nat.ofDigitChars_nil, Nat.mul_zero, Nat.zero_add]
      rfl
    have hprod : 10 ^ t.length * valueOf [c] = 0 := by omega
    rcases Nat.mul_eq_zero.mp hprod with hpow | hc0
    · omega
    · exact digit_zero (h c hc) (hone ▸ hc0)
  · intro hall
    have hzeros : ds = List.replicate ds.length '0' := List.eq_replicate_iff.mpr ⟨rfl, hall⟩
    have hvalue := @valueOf_zeros [] ds.length
    rw [List.append_nil, ← hzeros] at hvalue
    exact hvalue

/-- A number whose comma is dropped is read as it was if it is zero. -/
theorem dropped_iff (hip : Digits ip) (hne : ip ≠ []) (hfp : Digits fp) (hfne : fp ≠ [])
    (hvalue : valueOf (ip ++ fp) < 10 ^ 16) (hk : fp.length ≤ 16) :
    reading (ip ++ fp) = reading (ip ++ '.' :: fp) ↔ valueOf (ip ++ fp) = 0 := by
  have hpos := List.length_pos_of_ne_nil hfne
  rw [reading_whole (digits_append.mpr ⟨hip, hfp⟩) (List.append_ne_nil_of_left_ne_nil hne fp) hvalue,
    reading_fraction hip hne hfp hfne hvalue hk]
  generalize valueOf (ip ++ fp) = m at hvalue
  split
  · constructor
    · intro heq
      -- a positive number is not what is left of it without its fraction
      have hdiv := congrArg valueOf heq
      rw [valueOf_toDigits, valueOf_toDigits] at hdiv
      have hten : 1 < 10 ^ fp.length := Nat.one_lt_pow (by omega) (by omega)
      by_contra hm
      have hlt := Nat.div_lt_self (Nat.pos_of_ne_zero hm) hten
      omega
    · intro hm
      rw [hm, Nat.zero_div]
  · next hw =>
    have hw' : isWhole m (-(fp.length : Int)) = false := eq_false_of_ne_true hw
    have hm := (pointAt_lt hpos hw').1
    refine iff_of_false (fun heq => ?_) (by omega)
    exact not_digits_trimmed hpos hw' hvalue (heq ▸ digits_toDigits m)

theorem digits_around (hip : Digits ip) (hfp : Digits fp) {sep : Char} (hsep : sep.isDigit = false) :
    (∀ c ∈ ip ++ sep :: fp, c.isDigit = true → c = '0') ↔ valueOf (ip ++ fp) = 0 := by
  have hdigits := digits_append.mpr ⟨hip, hfp⟩
  rw [valueOf_eq_zero_iff hdigits]
  constructor
  · intro h c hc
    refine h c ?_ (hdigits c hc)
    rcases List.mem_append.mp hc with hc | hc
    · exact List.mem_append_left _ hc
    · exact List.mem_append_right _ (List.mem_cons_of_mem _ hc)
  · intro h c hc hdigit
    rcases List.mem_append.mp hc with hc | hc
    · exact h c (List.mem_append_left _ hc)
    · rcases List.mem_cons.mp hc with rfl | hc
      · cases hsep.symm.trans hdigit
      · exact h c (List.mem_append_right _ hc)

/-- **With a unit.** The pipeline drops a comma, so the two agree on the quantities without one, and on
    zero. -/
theorem sameQuantity_suffixed_iff (hlaws : TextLaws txt) (hq : Printed q) (hlen : q.length ≤ 16)
    (hu : UnitSuffix u) :
    SameQuantity txt (q ++ u) ↔ (',' ∈ q → ∀ c ∈ q, c.isDigit = true → c = '0') := by
  have hqne : q ≠ [] := by
    obtain ⟨⟨d, hd, -⟩, -⟩ := printed_chars hq
    rintro rfl
    cases hd
  rw [sameQuantity_of_ok (normalizeQuantity_suffixed hq hu) (List.append_ne_nil_of_left_ne_nil hqne u),
    script_printed hlaws hq (Or.inr hu)]
  -- without a comma the text is left as it is
  have hsame : digitsAndPoints q = q → (digitsAndPoints q ≠ [] ∧
      normalizeQuantity txt (txt.lower (strip (digitsAndPoints q))) = reading (commasAsPoints q)) := by
    intro heq
    rw [heq]
    exact ⟨hqne, script_bare hlaws hq⟩
  cases hq with
  | whole hip hne =>
    refine iff_of_true (hsame (digitsAndPoints_digits hip)) fun hcomma => ?_
    cases hip _ hcomma
  | @decimal ip fp sep hip hne hfp hfne hsep =>
    rcases hsep with rfl | rfl
    · refine iff_of_true (hsame (digitsAndPoints_decimal hip hfp).1) fun hcomma => ?_
      rcases List.mem_append.mp hcomma with hcomma | hcomma
      · cases hip _ hcomma
      · rcases List.mem_cons.mp hcomma with hcomma | hcomma
        · cases hcomma
        · cases hfp _ hcomma
    · obtain ⟨hvalue, hk⟩ := short_value hip hfp hlen
      have hdigits := digits_append.mpr ⟨hip, hfp⟩
      have hne' : ip ++ fp ≠ [] := List.append_ne_nil_of_left_ne_nil hne fp
      have hcomma : ',' ∈ ip ++ ',' :: fp := List.mem_append_right _ List.mem_cons_self
      rw [(digitsAndPoints_decimal hip hfp).2, script_bare hlaws (.whole hdigits hne'),
        commasAsPoints_digits hdigits, commasAsPoints_decimal hip hfp (Or.inr rfl), and_iff_right hne',
        dropped_iff hip hne hfp hfne hvalue hk, forall_prop_of_true hcomma, digits_around hip hfp rfl]

end Alike

end Eval

end InvoiceOcr
