/-
  File:      InvoiceOcr/Quantity.lean
  Subject:   QUANTITIES WITH A UNIT. `_normalize_quantity` reads a bare number as a float, and cleans
             a number with a unit by a regex; the two need not agree.

  * `Printed`, `UnitSuffix` -- the quantities and the suffixes;
  * `normalizeQuantity_suffixed` -- with a unit, the digits and points stay, a comma goes;
  * **`suffix_neutral_iff`** -- so a unit changes nothing on numbers that are written as `str` writes
    them, and on these only;
  * `comma_dropped` -- 4,878 kg.
-/
import InvoiceOcr.Postprocess

namespace InvoiceOcr

open PyJson PyText

/-! ## 1. Quantities and units -/

/-- ASCII digits with at most one separator, digits on both sides of it. -/
inductive Printed : Str → Prop where
  | whole {ip : Str} (hip : Digits ip) (hne : ip ≠ []) : Printed ip
  | decimal {ip fp : Str} {sep : Char} (hip : Digits ip) (hne : ip ≠ []) (hfp : Digits fp)
      (hfne : fp ≠ []) (hsep : sep = '.' ∨ sep = ',') : Printed (ip ++ sep :: fp)

/-- A letter of ASCII, or any character above it that is no whitespace and no digit: the letters of
    every script are among them. -/
def IsLetter (c : Char) : Prop :=
  c.isAlpha = true ∨ (127 < c.toNat ∧ PyText.isSpace c = false ∧ isDecimal c = false)

/-- Spaces and then letters, one at least. -/
def UnitSuffix (u : Str) : Prop :=
  ∃ n w, u = List.replicate n ' ' ++ w ∧ w ≠ [] ∧ ∀ c ∈ w, IsLetter c

/-- A number as `str` writes it, in the range of binary64. -/
def PlainNumber (q : Str) : Prop :=
  (Digits q ∧ NoLeadingZero q ∧ valueOf q < overflow) ∨
    ∃ ip fp, q = ip ++ '.' :: fp ∧ Digits ip ∧ Digits fp ∧ fp ≠ [] ∧ Canonical ip fp

/-! ## 2. With a unit -/

section Suffix

variable {q u : Str} {c : Char}

/-- What a letter is not. -/
theorem letter_class (h : IsLetter c) : PyText.isSpace c = false ∧ isDecimal c = false ∧ c ≠ '.' ∧
    c ≠ ',' ∧ toAscii c ≠ '_' ∧ isBlank (toAscii c) = false ∧ (toAscii c).isDigit = false ∧
      toAscii c ≠ '.' := by
  rcases h with h | ⟨hbeyond, hspace, hdecimal⟩
  · have hall : ∀ n < 128, (Char.ofNat n).isAlpha = true →
        PyText.isSpace (Char.ofNat n) = false ∧ isDecimal (Char.ofNat n) = false ∧
          Char.ofNat n ≠ '.' ∧ Char.ofNat n ≠ ',' ∧ toAscii (Char.ofNat n) ≠ '_' ∧
            isBlank (toAscii (Char.ofNat n)) = false ∧
              (toAscii (Char.ofNat n)).isDigit = false ∧ toAscii (Char.ofNat n) ≠ '.' := by
      decide +kernel
    have hletter : c.toNat < 128 := by
      have hranges : (decide ('A'.val ≤ c.val ∧ c.val ≤ 'Z'.val) ||
          decide ('a'.val ≤ c.val) && decide (c.val ≤ 'z'.val)) = true := h
      simp only [Bool.or_eq_true, Bool.and_eq_true, decide_eq_true_eq,
        UInt32.le_iff_toNat_le] at hranges
      have hnat : c.toNat = c.val.toNat := rfl
      have hupper : 'Z'.val.toNat = 90 := rfl
      have hlower : 'z'.val.toNat = 122 := rfl
      omega
    have hc := hall c.toNat hletter
    rw [Char.ofNat_toNat] at hc
    exact hc h
  · have hascii : toAscii c = '?' := by
      unfold toAscii
      have hnone : decimal? c = none := Option.not_isSome_iff_eq_none.mp (by
        unfold isDecimal at hdecimal
        rw [hdecimal]
        simp)
      rw [if_neg (by omega), hspace, hnone]
      rfl
    refine ⟨hspace, hdecimal, ?_, ?_, ?_⟩
    · intro heq
      subst heq
      exact absurd hbeyond (by decide)
    · intro heq
      subst heq
      exact absurd hbeyond (by decide)
    · rw [hascii]
      decide

theorem commasAsPoints_append (s t : Str) :
    commasAsPoints (s ++ t) = commasAsPoints s ++ commasAsPoints t := List.map_append

theorem digitsAndPoints_append (s t : Str) :
    digitsAndPoints (s ++ t) = digitsAndPoints s ++ digitsAndPoints t := List.filter_append ..

theorem digitsAndPoints_digits {ds : Str} (h : Digits ds) : digitsAndPoints ds = ds := by
  refine List.filter_eq_self.mpr fun c hc => ?_
  rw [isDecimal_of_isDigit (h c hc)]
  rfl

theorem commasAsPoints_digits {ds : Str} (h : Digits ds) : commasAsPoints ds = ds := by
  have hsame : commasAsPoints ds = ds.map id := by
    refine List.map_congr_left fun c hc => if_neg fun hcomma => ?_
    have hdigit := h c hc
    rw [hcomma] at hdigit
    simp at hdigit
  rw [hsame, List.map_id]

/-- Without its comma, if it has one. -/
theorem digitsAndPoints_decimal {ip fp : Str} (hip : Digits ip) (hfp : Digits fp) :
    digitsAndPoints (ip ++ '.' :: fp) = ip ++ '.' :: fp ∧
      digitsAndPoints (ip ++ ',' :: fp) = ip ++ fp := by
  have hpoint : digitsAndPoints ('.' :: fp) = '.' :: digitsAndPoints fp :=
    List.filter_cons_of_pos rfl
  have hcomma : digitsAndPoints (',' :: fp) = digitsAndPoints fp :=
    List.filter_cons_of_neg (by decide)
  rw [digitsAndPoints_append, digitsAndPoints_append, hpoint, hcomma, digitsAndPoints_digits hip,
    digitsAndPoints_digits hfp]
  exact ⟨rfl, rfl⟩

/-- Characters of printed quantities. -/
theorem printed_chars (hq : Printed q) :
    (∃ d, q.head? = some d ∧ d.isDigit = true) ∧ (∃ d, q.getLast? = some d ∧ d.isDigit = true) ∧
      ∀ c ∈ q, c.isDigit = true ∨ c = '.' ∨ c = ',' := by
  have hends : ∀ {ds : Str}, Digits ds → ds ≠ [] → (∃ d, ds.head? = some d ∧ d.isDigit = true) ∧
      ∃ d, ds.getLast? = some d ∧ d.isDigit = true := by
    intro ds hds hne
    exact ⟨⟨_, List.head?_eq_some_head hne, hds _ (List.head_mem hne)⟩,
      _, List.getLast?_eq_some_getLast hne, hds _ (List.getLast_mem hne)⟩
  cases hq with
  | whole hip hne =>
    exact ⟨(hends hip hne).1, (hends hip hne).2, fun c hc => Or.inl (hip c hc)⟩
  | @decimal ip fp sep hip hne hfp hfne hsep =>
    refine ⟨?_, ?_, fun c hc => ?_⟩
    · rw [List.head?_append_of_ne_nil _ hne]
      exact (hends hip hne).1
    · rw [List.getLast?_append_of_ne_nil _ (List.cons_ne_nil sep fp), List.getLast?_cons,
        List.getLast?_eq_some_getLast hfne]
      exact ⟨_, rfl, hfp _ (List.getLast_mem hfne)⟩
    · rcases List.mem_append.mp hc with hc | hc
      · exact Or.inl (hip c hc)
      · rcases List.mem_cons.mp hc with rfl | hc
        · exact Or.inr hsep
        · exact Or.inl (hfp c hc)

theorem strip_printed (hq : Printed q) : strip q = q := by
  obtain ⟨⟨d, hd, hdigit⟩, ⟨e, he, hdigit'⟩, -⟩ := printed_chars hq
  refine stripBy_eq_self (fun c hc => ?_) fun c hc => ?_
  · cases hd.symm.trans hc
    exact not_isSpace_of_isDecimal (isDecimal_of_isDigit hdigit)
  · cases he.symm.trans hc
    exact not_isSpace_of_isDecimal (isDecimal_of_isDigit hdigit')

/-- No underscore is read from a quantity with a unit. -/
theorem plain_suffixed {n : Nat} {w : Str} (hq : ∀ c ∈ q, c.isDigit = true ∨ c = '.' ∨ c = ',')
    (hw : ∀ c ∈ w, IsLetter c) (hc : c ∈ q ++ (List.replicate n ' ' ++ w)) :
    toAscii (if c = ',' then '.' else c) ≠ '_' := by
  have hsep : toAscii '.' ≠ '_' ∧ toAscii ' ' ≠ '_' := by decide
  have hother : c ≠ ',' → toAscii c ≠ '_' → toAscii (if c = ',' then '.' else c) ≠ '_' := by
    intro hcomma h
    rw [if_neg hcomma]
    exact h
  rcases List.mem_append.mp hc with hc | hc
  · rcases hq c hc with hdigit | rfl | rfl
    · rw [(digit_or_point (Or.inl hdigit)).1] at hother
      refine hother ?_ ?_
      · intro hcomma
        rw [hcomma] at hdigit
        simp at hdigit
      · intro hunder
        rw [hunder] at hdigit
        simp at hdigit
    · exact hsep.1
    · exact hsep.1
  · rcases List.mem_append.mp hc with hc | hc
    · rw [(List.mem_replicate.mp hc).2]
      exact hsep.2
    · have hclass := letter_class (hw c hc)
      exact hother hclass.2.2.2.1 hclass.2.2.2.2.1

/-- **With a unit**, the regex is what is applied. -/
theorem normalizeQuantity_suffixed (hq : Printed q) (hu : UnitSuffix u) :
    normalizeQuantity (q ++ u) = .ok (digitsAndPoints q) := by
  obtain ⟨⟨d, hd, hdigit⟩, -, hchars⟩ := printed_chars hq
  obtain ⟨n, w, rfl, hw, hletters⟩ := hu
  have hqne : q ≠ [] := by
    intro hnil
    rw [hnil] at hd
    simp at hd
  have hhead : (q ++ (List.replicate n ' ' ++ w)).head? = some d := by
    rw [List.head?_append_of_ne_nil _ hqne, hd]
  have hlast : (q ++ (List.replicate n ' ' ++ w)).getLast? = some (w.getLast hw) := by
    rw [← List.append_assoc, List.getLast?_append_of_ne_nil _ hw, List.getLast?_eq_some_getLast hw]
  have hletter := letter_class (hletters _ (List.getLast_mem hw))
  have hstrip : strip (q ++ (List.replicate n ' ' ++ w)) = q ++ (List.replicate n ' ' ++ w) := by
    refine stripBy_eq_self (fun c hc => ?_) fun c hc => ?_
    · cases hhead.symm.trans hc
      exact not_isSpace_of_isDecimal (isDecimal_of_isDigit hdigit)
    · cases hlast.symm.trans hc
      exact hletter.1
  have hnone : parseFloat (commasAsPoints (q ++ (List.replicate n ' ' ++ w))) = none := by
    have hd' : (if d = ',' then '.' else d) = d := if_neg fun h => by rw [h] at hdigit; cases hdigit
    have hw' : (if w.getLast hw = ',' then '.' else w.getLast hw) = w.getLast hw :=
      if_neg hletter.2.2.2.1
    refine parseFloat_letter (by rw [commasAsPoints, List.head?_map, hhead, Option.map_some, hd'])
      hdigit (fun e he => ?_)
      (by rw [commasAsPoints, List.getLast?_map, hlast, Option.map_some, hw'])
      hletter.2.2.2.2.2
    obtain ⟨c, hc, rfl⟩ := List.mem_map.mp he
    exact plain_suffixed hchars hletters hc
  have hclean : digitsAndPoints (List.replicate n ' ' ++ w) = [] := by
    refine List.filter_eq_nil_iff.mpr fun c hc => ?_
    rcases List.mem_append.mp hc with hc | hc
    · rw [(List.mem_replicate.mp hc).2]
      decide
    · have hclass := letter_class (hletters c hc)
      rw [hclass.2.1]
      simpa using hclass.2.2.1
  unfold normalizeQuantity
  rw [if_neg (List.append_ne_nil_of_left_ne_nil hqne _), hstrip]
  simp only
  rw [hnone, digitsAndPoints_append, hclean, List.append_nil]

end Suffix

/-! ## 3. Without a unit -/

section Bare

variable {q ip fp : Str} {x : PyFloat}

theorem normalizeQuantity_read (hne : q ≠ []) (hstrip : strip q = q)
    (hread : parseFloat (commasAsPoints q) = some x) : normalizeQuantity q =
      (intOf x).map fun n => if x.isInteger then intText n else reprFloat x := by
  unfold normalizeQuantity
  rw [if_neg hne, hstrip]
  simp only [hread]
  cases intOf x with
  | error e => rfl
  | ok n =>
    simp only [bind, Except.bind, Except.map]
    split <;> rfl

/-- A number without separator: its value, up to the range of binary64. -/
theorem normalizeQuantity_whole (hip : Digits ip) (hne : ip ≠ []) :
    (overflow ≤ valueOf ip ∧ ∃ e, normalizeQuantity ip = .error e) ∨
      (valueOf ip < overflow ∧ normalizeQuantity ip = .ok (Nat.toDigits 10 (valueOf ip))) := by
  have hread : parseFloat (commasAsPoints ip) = some (ofDecimal false (valueOf ip) 0) := by
    rw [commasAsPoints_digits hip, parseFloat_decimal hne fun d hd => Or.inl (hip d hd),
      readDecimal_whole hip hne]
    rfl
  have heq := normalizeQuantity_read hne (strip_printed (.whole hip hne)) hread
  have hover : overflows (valueOf ip) 0 = decide (overflow ≤ valueOf ip * 10 ^ 0) := rfl
  have hunder : underflows (valueOf ip) 0 = decide (valueOf ip = 0) := rfl
  rw [Nat.pow_zero, Nat.mul_one] at hover
  unfold ofDecimal at heq
  rw [hover, hunder] at heq
  by_cases hlarge : overflow ≤ valueOf ip
  · rw [if_pos (decide_eq_true hlarge)] at heq
    exact Or.inl ⟨hlarge, _, heq⟩
  · rw [if_neg (by simpa using hlarge)] at heq
    refine Or.inr ⟨by omega, ?_⟩
    by_cases hzero : valueOf ip = 0
    · rw [if_pos (decide_eq_true hzero)] at heq
      rw [heq, hzero]
      rfl
    · rw [if_neg (by simpa using hzero)] at heq
      have hpart : wholePart (valueOf ip) 0 = valueOf ip := Nat.mul_one _
      rw [heq]
      show Except.ok (intText (wholePart (valueOf ip) 0 : Int)) = _
      rw [hpart]
      rfl

/-- A decimal with either separator. -/
theorem normalizeQuantity_decimal (hip : Digits ip) (hne : ip ≠ []) (hfp : Digits fp) (hfne : fp ≠ [])
    {sep : Char} (hsep : sep = '.' ∨ sep = ',') : normalizeQuantity (ip ++ sep :: fp) =
      (intOf (ofDecimal false (valueOf (ip ++ fp)) (-(fp.length : Int)))).map fun n =>
        if (ofDecimal false (valueOf (ip ++ fp)) (-(fp.length : Int))).isInteger then intText n
        else reprFloat (ofDecimal false (valueOf (ip ++ fp)) (-(fp.length : Int))) := by
  have hpoint : commasAsPoints (ip ++ sep :: fp) = ip ++ '.' :: fp := by
    have hsep' : (if sep = ',' then '.' else sep) = '.' := by
      rcases hsep with rfl | rfl
      · rfl
      · rfl
    have hfp' := commasAsPoints_digits hfp
    unfold commasAsPoints at hfp'
    rw [commasAsPoints_append, commasAsPoints_digits hip]
    show ip ++ (if sep = ',' then '.' else sep) :: _ = _
    rw [hsep', hfp']
  have hchars : ∀ d ∈ ip ++ '.' :: fp, d.isDigit = true ∨ d = '.' := by
    intro d hd
    rcases List.mem_append.mp hd with hd | hd
    · exact Or.inl (hip d hd)
    · rcases List.mem_cons.mp hd with rfl | hd
      · exact Or.inr rfl
      · exact Or.inl (hfp d hd)
  refine normalizeQuantity_read (List.append_ne_nil_of_left_ne_nil hne _)
    (strip_printed (.decimal hip hne hfp hfne hsep)) ?_
  rw [hpoint, parseFloat_decimal (List.append_ne_nil_of_left_ne_nil hne _) hchars,
    readDecimal_point hip hfp (List.append_ne_nil_of_left_ne_nil hne _)]
  rfl

/-- What a decimal becomes: nothing, as it is too large; an integer with no more digits than stand
    before the separator; or a text with a point or an exponent. -/
theorem normalizeQuantity_decimal_cases (hip : Digits ip) (hne : ip ≠ []) (hfp : Digits fp)
    (hfne : fp ≠ []) {sep : Char} (hsep : sep = '.' ∨ sep = ',') :
    (∃ e, normalizeQuantity (ip ++ sep :: fp) = .error e) ∨
      (∃ n, normalizeQuantity (ip ++ sep :: fp) = .ok (Nat.toDigits 10 n) ∧
        (Nat.toDigits 10 n).length ≤ ip.length) ∨
      (normalizeQuantity (ip ++ sep :: fp) =
          .ok (reprDecimal (valueOf (ip ++ fp)) (-(fp.length : Int))) ∧
        isWhole (valueOf (ip ++ fp)) (-(fp.length : Int)) = false) := by
  have hpos := List.length_pos_of_ne_nil hfne
  have hippos := List.length_pos_of_ne_nil hne
  have heq := normalizeQuantity_decimal hip hne hfp hfne hsep
  unfold ofDecimal at heq
  split at heq
  · exact Or.inl ⟨_, heq⟩
  · split at heq
    · refine Or.inr (Or.inl ⟨0, heq, ?_⟩)
      rw [Nat.toDigits_zero]
      exact hippos
    · cases hw : isWhole (valueOf (ip ++ fp)) (-(fp.length : Int)) with
      | false =>
        have hnot : (PyFloat.fin false (valueOf (ip ++ fp)) (-(fp.length : Int))).isInteger = false := hw
        rw [hnot] at heq
        exact Or.inr (Or.inr ⟨heq, rfl⟩)
      | true =>
        have hint : (PyFloat.fin false (valueOf (ip ++ fp)) (-(fp.length : Int))).isInteger = true := hw
        rw [hint] at heq
        refine Or.inr (Or.inl ⟨wholePart (valueOf (ip ++ fp)) (-(fp.length : Int)), heq, ?_⟩)
        refine (Nat.length_toDigits_le_iff (by omega) hippos).mpr ?_
        have hlt := valueOf_lt (digits_append.mpr ⟨hip, hfp⟩)
        rw [List.length_append, Nat.pow_add, Nat.mul_comm] at hlt
        rw [wholePart_neg hpos]
        exact Nat.div_lt_of_lt_mul hlt

theorem normalizeQuantity_canonical (hip : Digits ip) (hfp : Digits fp) (hfne : fp ≠ [])
    (h : Canonical ip fp) : normalizeQuantity (ip ++ '.' :: fp) = .ok (ip ++ '.' :: fp) := by
  rw [normalizeQuantity_decimal hip h.whole.1 hfp hfne (Or.inl rfl),
    ofDecimal_canonical hip hfp hfne h]
  have hnot : (PyFloat.fin false (valueOf (ip ++ fp)) (-(fp.length : Int))).isInteger = false :=
    canonical_not_whole hfp hfne h.fraction
  rw [hnot]
  exact congrArg Except.ok (reprDecimal_canonical hip hfp hfne h)

end Bare

/-! ## 4. A unit changes nothing -/

section Neutral

variable {q u ip fp : Str}

theorem whole_kept_iff (hip : Digits ip) (hne : ip ≠ []) :
    normalizeQuantity ip = .ok ip ↔ NoLeadingZero ip ∧ valueOf ip < overflow := by
  constructor
  · intro hkept
    rcases normalizeQuantity_whole hip hne with ⟨_, e, he⟩ | ⟨hlt, heq⟩
    · rw [he] at hkept
      simp at hkept
    · have hsame : Nat.toDigits 10 (valueOf ip) = ip := Except.ok.inj (heq.symm.trans hkept)
      rw [← hsame]
      exact ⟨noLeadingZero_toDigits _, by rw [hsame]; exact hlt⟩
  · intro ⟨hlead, hlt⟩
    rcases normalizeQuantity_whole hip hne with ⟨hge, _⟩ | ⟨_, heq⟩
    · omega
    · rw [heq, toDigits_valueOf hip hlead]

theorem decimal_kept_iff (hip : Digits ip) (hne : ip ≠ []) (hfp : Digits fp) (hfne : fp ≠ []) :
    normalizeQuantity (ip ++ '.' :: fp) = .ok (ip ++ '.' :: fp) ↔ Canonical ip fp := by
  refine ⟨fun hkept => ?_, normalizeQuantity_canonical hip hfp hfne⟩
  rcases normalizeQuantity_decimal_cases hip hne hfp hfne (Or.inl rfl) with
    ⟨e, he⟩ | ⟨n, heq, -⟩ | ⟨heq, hw⟩
  · rw [he] at hkept
    simp at hkept
  · have hsame : Nat.toDigits 10 n = ip ++ '.' :: fp := Except.ok.inj (heq.symm.trans hkept)
    have hdot := digits_toDigits n '.' (by rw [hsame]; exact List.mem_append_right _ List.mem_cons_self)
    simp at hdot
  · exact canonical_of_reprDecimal (List.length_pos_of_ne_nil hfne) hw hip hfp
      (Except.ok.inj (heq.symm.trans hkept))

/-- A decimal comma is lost. -/
theorem comma_not_kept (hip : Digits ip) (hne : ip ≠ []) (hfp : Digits fp) (hfne : fp ≠ []) :
    normalizeQuantity (ip ++ ',' :: fp) ≠ .ok (ip ++ fp) := by
  intro hkept
  rcases normalizeQuantity_decimal_cases hip hne hfp hfne (Or.inr rfl) with
    ⟨e, he⟩ | ⟨n, heq, hlen⟩ | ⟨heq, -⟩
  · rw [he] at hkept
    simp at hkept
  · have hsame : Nat.toDigits 10 n = ip ++ fp := Except.ok.inj (heq.symm.trans hkept)
    have hpos := List.length_pos_of_ne_nil hfne
    rw [hsame, List.length_append] at hlen
    omega
  · have hsame : reprDecimal (valueOf (ip ++ fp)) (-(fp.length : Int)) = ip ++ fp :=
      Except.ok.inj (heq.symm.trans hkept)
    have hnot := @not_digits_reprDecimal (valueOf (ip ++ fp)) (-(fp.length : Int))
    rw [hsame] at hnot
    exact hnot (digits_append.mpr ⟨hip, hfp⟩)

/-- **When a unit changes nothing**: when the number is written as `str` writes it. -/
theorem suffix_neutral_iff (hq : Printed q) (hu : UnitSuffix u) :
    normalizeQuantity (q ++ u) = normalizeQuantity q ↔ PlainNumber q := by
  rw [normalizeQuantity_suffixed hq hu, eq_comm]
  unfold PlainNumber
  cases hq with
  | whole hip hne =>
    rw [digitsAndPoints_digits hip, whole_kept_iff hip hne]
    refine ⟨fun h => Or.inl ⟨hip, h⟩, fun h => ?_⟩
    rcases h with ⟨-, h⟩ | ⟨ip', fp', rfl, _⟩
    · exact h
    · cases hip _ (List.mem_append_right ip' List.mem_cons_self)
  | @decimal ip fp sep hip hne hfp hfne hsep =>
    have hnot : ¬ Digits (ip ++ sep :: fp) := by
      intro h
      have hdigit := h sep (List.mem_append_right _ List.mem_cons_self)
      rcases hsep with rfl | rfl
      · simp at hdigit
      · simp at hdigit
    rcases hsep with rfl | rfl
    · rw [(digitsAndPoints_decimal hip hfp).1, decimal_kept_iff hip hne hfp hfne]
      refine ⟨fun h => Or.inr ⟨ip, fp, rfl, hip, hfp, hfne, h⟩, fun h => ?_⟩
      rcases h with ⟨h, -⟩ | ⟨ip', fp', heq, hip', -, -, h⟩
      · exact absurd h hnot
      · obtain ⟨rfl, rfl⟩ := split_point hip hip' heq
        exact h
    · rw [(digitsAndPoints_decimal hip hfp).2]
      refine ⟨fun h => absurd h (comma_not_kept hip hne hfp hfne), fun h => ?_⟩
      rcases h with ⟨h, -⟩ | ⟨ip', fp', heq, hip', hfp', -, -⟩
      · exact absurd h hnot
      · -- a comma stands in no such number
        have hcomma : ',' ∈ ip' ++ '.' :: fp' := by
          rw [← heq]
          exact List.mem_append_right _ List.mem_cons_self
        rcases List.mem_append.mp hcomma with hc | hc
        · cases hip' _ hc
        · rcases List.mem_cons.mp hc with hc | hc
          · simp at hc
          · cases hfp' _ hc

end Neutral

namespace Sample

theorem unit_kg : UnitSuffix "kg".toList :=
  ⟨0, "kg".toList, rfl, by decide, by
    intro c hc
    left
    have hall : ∀ c ∈ "kg".toList, c.isAlpha = true := List.all_eq_true.mp (by decide)
    exact hall c hc⟩

end Sample

/-- 4,878 kg becomes 4878. -/
theorem comma_dropped : Printed "4,878".toList ∧ UnitSuffix "kg".toList ∧
    normalizeQuantity ("4,878".toList ++ "kg".toList) ≠ normalizeQuantity "4,878".toList := by
  have hdigits : Digits "4".toList ∧ Digits "878".toList :=
    ⟨List.all_eq_true.mp (by decide), List.all_eq_true.mp (by decide)⟩
  refine ⟨.decimal hdigits.1 (by decide) hdigits.2 (by decide) (Or.inr rfl), Sample.unit_kg, ?_⟩
  have hunit : normalizeQuantity ("4,878".toList ++ "kg".toList) = .ok "4878".toList := by
    decide +kernel
  have hbare : normalizeQuantity "4,878".toList = .ok "4.878".toList := by decide +kernel
  rw [hunit, hbare]
  decide

/-- 1.25 kg. -/
theorem suffix_neutral_point : normalizeQuantity ("1.25".toList ++ "kg".toList) =
    normalizeQuantity "1.25".toList := by
  have hdigits : Digits "1".toList ∧ Digits "25".toList :=
    ⟨List.all_eq_true.mp (by decide), List.all_eq_true.mp (by decide)⟩
  refine (suffix_neutral_iff (.decimal hdigits.1 (by decide) hdigits.2 (by decide) (Or.inl rfl))
    Sample.unit_kg).mpr (Or.inr ⟨"1".toList, "25".toList, rfl, hdigits.1, hdigits.2, by decide, ?_⟩)
  exact ⟨⟨by decide, by decide⟩, by decide, by decide, by decide⟩

end InvoiceOcr
