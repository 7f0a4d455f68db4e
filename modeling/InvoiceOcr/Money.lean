/-
  File:      InvoiceOcr/Money.lean
  Subject:   AMOUNTS OF MONEY (src/pipeline/postprocessor.py, `_normalize_money`).

  * `decimals` -- the digits of a text; `LeadsNegative` -- what the normalizer takes for a sign;
  * `normalizeMoney_eq` -- the seven rewrites as one equation;
  * `Rendering` -- an amount as a receipt prints it;
  * **`normalizeMoney_keeps`** -- the digits and the sign are kept and nothing else, so that every
    rendering of an amount is normalized to the amount.
-/
import InvoiceOcr.Postprocess

namespace InvoiceOcr

open PyJson PyText

variable {x : Str}

/-! ## 1. Digits and sign -/

theorem filter_of_imp {p q : Char → Bool} (h : ∀ c, q c = true → p c = true) :
    (x.filter p).filter q = x.filter q := by
  rw [List.filter_filter]
  refine List.filter_congr fun c _ => ?_
  cases hq : q c with
  | false => rfl
  | true => rw [h c hq, Bool.and_self]

/-- The digits of an amount. -/
def decimals (x : Str) : Str := x.filter isDecimal

/-- Whitespace and currency signs apart, the text begins with a minus or a bracket. -/
def LeadsNegative (x : Str) : Prop :=
  (x.filter fun c => !isCurrency c).head? = some '-' ∨
    (x.filter fun c => !isCurrency c).head? = some '('

instance (x : Str) : Decidable (LeadsNegative x) := inferInstanceAs (Decidable (_ ∨ _))

theorem decimals_strip : decimals (strip x) = decimals x :=
  filter_stripBy fun _ h => not_isDecimal_of_isSpace h

theorem decimals_decimals : decimals (decimals x) = decimals x := filter_of_imp fun _ h => h

theorem decimals_eq_nil : decimals x = [] ↔ ∀ c ∈ x, isDecimal c = false := by
  unfold decimals
  simp [List.filter_eq_nil_iff]

theorem not_isCurrency_of_isDecimal {c : Char} (h : isDecimal c = true) : (!isCurrency c) = true := by
  have hspace := not_isSpace_of_isDecimal h
  unfold isCurrency
  by_cases hd : c = 'đ' ∨ c = 'Đ' ∨ c = '₫'
  · rcases hd with rfl | rfl | rfl <;> revert h <;> decide
  · simp only [not_or] at hd
    simp [hd, hspace]

theorem not_isDecimal_of_isSign {c : Char} (h : isSign c = true) : isDecimal c = false := by
  simp only [isSign, Bool.or_eq_true, decide_eq_true_eq] at h
  rcases h with (rfl | rfl) | rfl <;> decide

theorem ne_of_isDecimal {c d : Char} (hd : isDecimal d = false) (h : isDecimal c = true) :
    decide (c ≠ d) = true := by
  refine decide_eq_true fun heq => ?_
  rw [heq, hd] at h
  simp at h

/-- What the two prefix tests find. -/
theorem isNegative_iff (v : Str) : ("-".toList.isPrefixOf v || "(".toList.isPrefixOf v) = true ↔
    v.head? = some '-' ∨ v.head? = some '(' := by
  cases v with
  | nil => simp
  | cons c v =>
    show (('-' == c && true) || ('(' == c && true)) = true ↔ some c = some '-' ∨ some c = some '('
    simp only [Bool.and_true, Bool.or_eq_true, beq_iff_eq, Option.some.injEq]
    exact or_congr eq_comm eq_comm

/-- **What the money normalizer leaves**: the digits, behind a minus where the text leads with one
    or with a bracket. -/
theorem normalizeMoney_eq (x : Str) : normalizeMoney x =
    if decimals x = [] then [] else if LeadsNegative x then '-' :: decimals x else decimals x := by
  unfold normalizeMoney
  by_cases hx : x = []
  · subst hx
    rfl
  simp only [if_neg hx]
  have hkept : (strip x).filter (fun c => !isCurrency c) = x.filter fun c => !isCurrency c :=
    filter_stripBy fun c hc => by
      have hcurrency : isCurrency c = true := by
        unfold isCurrency
        rw [hc, Bool.or_true]
      rw [hcurrency]
      rfl
  rw [hkept]
  have hsign : ("-".toList.isPrefixOf (x.filter fun c => !isCurrency c) ||
      "(".toList.isPrefixOf (x.filter fun c => !isCurrency c)) = true ↔ LeadsNegative x :=
    isNegative_iff _
  have hdecimals : decimals (x.filter fun c => !isCurrency c) = decimals x :=
    filter_of_imp fun _ => not_isCurrency_of_isDecimal
  generalize (x.filter fun c => !isCurrency c) = v at hsign hdecimals
  have hinner : decimals (strip (stripBy isSign v)) = decimals x := by
    rw [decimals_strip, ← hdecimals]
    exact filter_stripBy fun _ => not_isDecimal_of_isSign
  generalize strip (stripBy isSign v) = w at hinner
  have hlast : ((w.filter fun c => decide (c ≠ ',')).filter fun c => decide (c ≠ '.')).filter isDecimal =
      decimals x := by
    rw [filter_of_imp fun _ => ne_of_isDecimal (d := '.') (by decide),
      filter_of_imp fun _ => ne_of_isDecimal (d := ',') (by decide)]
    exact hinner
  by_cases hw : w = []
  · rw [if_pos hw, if_pos]
    rw [← hinner, hw]
    rfl
  rw [if_neg hw, hlast]
  by_cases hnone : decimals x = []
  · rw [if_pos hnone, if_pos hnone]
  · rw [if_neg hnone, if_neg hnone]
    exact if_congr hsign rfl rfl

/-- The digits stay. -/
theorem decimals_normalizeMoney : decimals (normalizeMoney x) = decimals x := by
  have hminus : decimals ('-' :: decimals x) = decimals x := decimals_decimals
  rw [normalizeMoney_eq]
  split
  · next hnone => exact hnone.symm
  · split
    · exact hminus
    · exact decimals_decimals

/-- Digits do not lead with a sign. -/
theorem not_leadsNegative_of_decimal {c : Char} (hc : isDecimal c = true) (x : Str) :
    ¬ LeadsNegative (c :: x) := by
  have hhead : ((c :: x).filter fun c => !isCurrency c).head? = some c :=
    congrArg List.head? (List.filter_cons_of_pos (p := fun c => !isCurrency c)
      (not_isCurrency_of_isDecimal hc))
  unfold LeadsNegative
  rw [hhead]
  simp only [Option.some.injEq, not_or]
  exact ⟨of_decide_eq_true (ne_of_isDecimal (by decide) hc),
    of_decide_eq_true (ne_of_isDecimal (by decide) hc)⟩

theorem leadsNegative_normalizeMoney (h : decimals x ≠ []) :
    LeadsNegative (normalizeMoney x) ↔ LeadsNegative x := by
  rw [normalizeMoney_eq, if_neg h]
  by_cases hneg : LeadsNegative x
  · rw [if_pos hneg]
    exact iff_of_true (Or.inl rfl) hneg
  · rw [if_neg hneg]
    refine iff_of_false ?_ hneg
    obtain ⟨c, ds, hds⟩ := List.exists_cons_of_ne_nil h
    have hc : isDecimal c = true := (List.mem_filter.mp (hds ▸ List.mem_cons_self : c ∈ decimals x)).2
    rw [hds]
    exact not_leadsNegative_of_decimal hc ds

/-! ## 2. Amounts as receipts print them -/

/-- What digits are grouped by. -/
def isGrouping (c : Char) : Bool := c = '.' || c = ',' || PyText.isSpace c

/-- How a negative amount is marked. -/
inductive SignStyle where
  | minus
  | brackets
  deriving DecidableEq, Repr

/-- **A rendering of an amount**: its digits, grouped somehow, with currency words behind. -/
structure Rendering where
  amount : Int
  style : SignStyle
  grouped : Str
  /-- The currency word inside the brackets, and the one behind. -/
  inner : Str
  outer : Str
  grouped_digits : (grouped.filter fun c => !isGrouping c) = natStr amount.natAbs
  words : ∀ c ∈ inner ++ outer, isDecimal c = false

/-- The text on the receipt. -/
def Rendering.text (r : Rendering) : Str :=
  if 0 ≤ r.amount then r.grouped ++ r.inner ++ r.outer
  else
    match r.style with
    | .minus => '-' :: (r.grouped ++ r.inner ++ r.outer)
    | .brackets => '(' :: (r.grouped ++ r.inner ++ ')' :: r.outer)

section Renderings

variable {r : Rendering}

theorem not_isDecimal_of_isGrouping {c : Char} (h : isGrouping c = true) : isDecimal c = false := by
  simp only [isGrouping, Bool.or_eq_true, decide_eq_true_eq] at h
  rcases h with (rfl | rfl) | h
  · decide
  · decide
  · exact not_isDecimal_of_isSpace h

theorem isDecimal_natStr {n : Nat} {c : Char} (h : c ∈ natStr n) : isDecimal c = true :=
  isDecimal_of_isDigit (digits_toDigits n c h)

/-- Grouping hides no digit and brings none. -/
theorem decimals_grouped (r : Rendering) : decimals r.grouped = natStr r.amount.natAbs := by
  rw [← r.grouped_digits]
  refine List.filter_congr fun c hc => ?_
  cases hgroup : isGrouping c with
  | true => exact not_isDecimal_of_isGrouping hgroup
  | false =>
    have hmem : c ∈ r.grouped.filter fun c => !isGrouping c :=
      List.mem_filter.mpr ⟨hc, by rw [hgroup]; rfl⟩
    rw [r.grouped_digits] at hmem
    exact isDecimal_natStr hmem

theorem decimals_words {w : Str} (h : ∀ c ∈ w, c ∈ r.inner ++ r.outer) : decimals w = [] :=
  decimals_eq_nil.mpr fun c hc => r.words c (h c hc)

theorem decimals_text (r : Rendering) : decimals r.text = natStr r.amount.natAbs := by
  have hinner : decimals r.inner = [] :=
    @decimals_words r r.inner fun c hc => List.mem_append_left _ hc
  have houter : decimals r.outer = [] :=
    @decimals_words r r.outer fun c hc => List.mem_append_right _ hc
  have hplain : decimals (r.grouped ++ r.inner ++ r.outer) = natStr r.amount.natAbs := by
    unfold decimals at hinner houter ⊢
    rw [List.filter_append, List.filter_append, hinner, houter, List.append_nil, List.append_nil]
    exact decimals_grouped r
  unfold Rendering.text
  split
  · exact hplain
  · split
    · exact hplain
    · show decimals (r.grouped ++ r.inner ++ ')' :: r.outer) = _
      rw [← hplain]
      unfold decimals
      rw [List.filter_append, List.filter_append (r.grouped ++ r.inner)]
      rfl

/-- Grouped digits are there, and begin with no sign. -/
theorem not_leadsNegative_grouped (r : Rendering) (w : Str) : ¬ LeadsNegative (r.grouped ++ w) := by
  have hchars : ∀ c ∈ r.grouped, isDecimal c = true ∨ isGrouping c = true := by
    intro c hc
    cases hgroup : isGrouping c with
    | true => exact Or.inr rfl
    | false =>
      have hmem : c ∈ r.grouped.filter fun c => !isGrouping c :=
        List.mem_filter.mpr ⟨hc, by rw [hgroup]; rfl⟩
      rw [r.grouped_digits] at hmem
      exact Or.inl (isDecimal_natStr hmem)
  have hne : (r.grouped.filter fun c => !isCurrency c) ≠ [] := by
    intro hnil
    have hdigits : decimals r.grouped = [] :=
      (filter_of_imp fun _ => not_isCurrency_of_isDecimal).symm.trans
        (congrArg decimals hnil)
    rw [decimals_grouped r] at hdigits
    exact Nat.toDigits_ne_nil hdigits
  obtain ⟨c, rest, hrest⟩ := List.exists_cons_of_ne_nil hne
  have hc := hchars c (List.mem_filter.mp (hrest ▸ List.mem_cons_self)).1
  unfold LeadsNegative
  rw [List.filter_append, hrest]
  simp only [List.cons_append, List.head?_cons, Option.some.injEq]
  rintro (rfl | rfl) <;> revert hc <;> decide

/-- A rendering leads with a sign exactly when the amount is negative. -/
theorem leadsNegative_text (r : Rendering) : LeadsNegative r.text ↔ r.amount < 0 := by
  unfold Rendering.text
  split
  · next hpos =>
    rw [List.append_assoc]
    exact iff_of_false (not_leadsNegative_grouped r _) (not_lt.mpr hpos)
  · next hneg =>
    refine iff_of_true ?_ (not_le.mp hneg)
    split
    · exact Or.inl rfl
    · exact Or.inr rfl

theorem intStr_natAbs (n : Int) : intStr n = if n < 0 then '-' :: natStr n.natAbs else natStr n.natAbs := by
  cases n with
  | ofNat n => exact (if_neg (not_lt.mpr (Int.natCast_nonneg n))).symm
  | negSucc n => exact (if_pos (Int.negSucc_lt_zero n)).symm

/-- **A rendering is normalized to its amount.** -/
theorem normalizeMoney_text (r : Rendering) : normalizeMoney r.text = intStr r.amount := by
  have hne : decimals r.text ≠ [] := by
    rw [decimals_text]
    exact Nat.toDigits_ne_nil
  rw [normalizeMoney_eq, if_neg hne, decimals_text, intStr_natAbs]
  exact if_congr (leadsNegative_text r) rfl rfl

end Renderings

/-! ## 3. The law -/

/-- What the normalizer keeps of a text. -/
structure KeepsMoney (x : Str) : Prop where
  empty_iff : normalizeMoney x = [] ↔ ∀ c ∈ x, isDecimal c = false
  digits : normalizeMoney x ≠ [] →
    normalizeMoney x = (if LeadsNegative x then ['-'] else []) ++ x.filter isDecimal
  idempotent : normalizeMoney (normalizeMoney x) = normalizeMoney x

theorem keepsMoney (x : Str) : KeepsMoney x := by
  by_cases hnone : decimals x = []
  · have hnil : normalizeMoney x = [] := by rw [normalizeMoney_eq, if_pos hnone]
    refine ⟨iff_of_true hnil (decimals_eq_nil.mp hnone), fun hne => absurd hnil hne, ?_⟩
    rw [hnil]
    rfl
  · have heq : normalizeMoney x = (if LeadsNegative x then ['-'] else []) ++ decimals x := by
      rw [normalizeMoney_eq, if_neg hnone]
      split <;> rfl
    refine ⟨iff_of_false ?_ fun h => hnone (decimals_eq_nil.mpr h), fun _ => heq, ?_⟩
    · rw [heq]
      exact fun h => hnone (List.append_eq_nil_iff.mp h).2
    · have hsame := leadsNegative_normalizeMoney hnone
      rw [normalizeMoney_eq (normalizeMoney x), decimals_normalizeMoney, if_neg hnone,
        if_congr hsame rfl rfl, normalizeMoney_eq x, if_neg hnone]

/-- **Money is normalized to its digits and its sign**: on every text, and so every rendering of an
    amount to the amount. -/
theorem normalizeMoney_keeps :
    (∀ x, KeepsMoney x) ∧ ∀ r : Rendering, normalizeMoney r.text = intStr r.amount :=
  ⟨keepsMoney, normalizeMoney_text⟩

example : normalizeMoney "(1.250 000 đ) VND".toList = "-1250000".toList := by decide +kernel

end InvoiceOcr
