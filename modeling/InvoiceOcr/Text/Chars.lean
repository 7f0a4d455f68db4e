/-
  File:      InvoiceOcr/Text/Chars.lean
  Subject:   CHARACTERS AND STRIPPING, as `str` and `re` have them. Nothing here names a program.

  * `isSpace`, `decimal?` -- what `\s` and `\d` match, over Unicode;
  * `stripBy`, `strip` -- `s.strip(chars)`, `s.strip()`;
  * `filter_stripBy`, `strip_strip` -- stripping loses nothing else, and is done once.
-/
import Mathlib.Data.List.DropRight

namespace PyText

/-! ## 1. Character classes -/

/-- The code points of whitespace. -/
def spaces : List Nat :=
  [0x09, 0x0A, 0x0B, 0x0C, 0x0D, 0x1C, 0x1D, 0x1E, 0x1F, 0x20, 0x85, 0xA0, 0x1680, 0x2000, 0x2001,
   0x2002, 0x2003, 0x2004, 0x2005, 0x2006, 0x2007, 0x2008, 0x2009, 0x200A, 0x2028, 0x2029, 0x202F,
   0x205F, 0x3000]

/-- `c.isspace()`, which is also what `\s` matches. -/
def isSpace (c : Char) : Bool := spaces.contains c.toNat

/-- The code points of the decimal zeros; the nine digits follow each of them. -/
def zeros : List Nat :=
  [0x30, 0x660, 0x6F0, 0x7C0, 0x966, 0x9E6, 0xA66, 0xAE6, 0xB66, 0xBE6, 0xC66, 0xCE6, 0xD66, 0xDE6,
   0xE50, 0xED0, 0xF20, 0x1040, 0x1090, 0x17E0, 0x1810, 0x1946, 0x19D0, 0x1A80, 0x1A90, 0x1B50,
   0x1BB0, 0x1C40, 0x1C50, 0xA620, 0xA8D0, 0xA900, 0xA9D0, 0xA9F0, 0xAA50, 0xABF0, 0xFF10, 0x104A0,
   0x10D30, 0x11066, 0x110F0, 0x11136, 0x111D0, 0x112F0, 0x11450, 0x114D0, 0x11650, 0x116C0, 0x11730,
   0x118E0, 0x11950, 0x11C50, 0x11D50, 0x11DA0, 0x16A60, 0x16AC0, 0x16B50, 0x1D7CE, 0x1D7D8, 0x1D7E2,
   0x1D7EC, 0x1D7F6, 0x1E140, 0x1E2F0, 0x1E950, 0x1FBF0]

/-- The decimal value of a code point. -/
def decimalOf (n : Nat) : Option Nat :=
  (zeros.find? fun z => z ≤ n && n < z + 10).map fun z => n - z

/-- `unicodedata.decimal(c)`. -/
def decimal? (c : Char) : Option Nat := decimalOf c.toNat

/-- `c.isdecimal()`, which is also what `\d` matches. -/
def isDecimal (c : Char) : Bool := (decimal? c).isSome

theorem decimal_isDigit {c : Char} (h : c.isDigit = true) : decimal? c = some (c.toNat - 48) := by
  have hrange : 48 ≤ c.toNat ∧ c.toNat ≤ 57 := by
    simp only [Char.isDigit, Bool.and_eq_true, decide_eq_true_eq] at h
    exact h
  unfold decimal? decimalOf zeros
  rw [List.find?_cons_of_pos (by simp; omega)]
  rfl

/-- An ASCII digit is a decimal. -/
theorem isDecimal_of_isDigit {c : Char} (h : c.isDigit = true) : isDecimal c = true := by
  unfold isDecimal
  rw [decimal_isDigit h]
  rfl

/-- No whitespace is a decimal. -/
theorem not_isDecimal_of_isSpace {c : Char} (h : isSpace c = true) : isDecimal c = false := by
  have hall : ∀ n ∈ spaces, (decimalOf n).isSome = false := by decide
  exact hall _ (List.contains_iff_mem.mp h)

theorem not_isSpace_of_isDecimal {c : Char} (h : isDecimal c = true) : isSpace c = false := by
  cases hs : isSpace c with
  | false => rfl
  | true =>
    rw [not_isDecimal_of_isSpace hs] at h
    simp at h

/-! ## 2. Stripping -/

/-- `s.strip(chars)`, with the characters as a test. -/
def stripBy (p : Char → Bool) (s : List Char) : List Char := (s.dropWhile p).rdropWhile p

/-- `s.strip()`. -/
def strip (s : List Char) : List Char := stripBy isSpace s

section Strip

variable {p q : Char → Bool} {s : List Char} {c : Char}

theorem filter_dropWhile (h : ∀ c, p c = true → q c = false) :
    (s.dropWhile p).filter q = s.filter q := by
  induction s with
  | nil => rfl
  | cons c s ih =>
    rw [List.dropWhile_cons]
    split
    · next hc => rw [ih, List.filter_cons_of_neg (by rw [h c hc]; simp)]
    · rfl

theorem filter_rdropWhile (h : ∀ c, p c = true → q c = false) :
    (s.rdropWhile p).filter q = s.filter q := by
  rw [List.rdropWhile, List.filter_reverse, filter_dropWhile h, List.filter_reverse,
    List.reverse_reverse]

/-- **Stripping keeps what it does not strip.** -/
theorem filter_stripBy (h : ∀ c, p c = true → q c = false) : (stripBy p s).filter q = s.filter q := by
  unfold stripBy
  rw [filter_rdropWhile h, filter_dropWhile h]

/-- A text that neither begins nor ends with one is not stripped. -/
theorem stripBy_eq_self (hhead : ∀ c, s.head? = some c → p c = false)
    (hlast : ∀ c, s.getLast? = some c → p c = false) : stripBy p s = s := by
  have hdrop : s.dropWhile p = s := by
    cases s with
    | nil => rfl
    | cons c s => rw [List.dropWhile_cons_of_neg (by rw [hhead c rfl]; simp)]
  unfold stripBy
  rw [hdrop, List.rdropWhile_eq_self_iff]
  intro hs
  rw [hlast _ (List.getLast?_eq_some_getLast hs)]
  simp

theorem head_stripBy (h : (stripBy p s).head? = some c) : p c = false := by
  have hpre := List.rdropWhile_prefix p (s.dropWhile p)
  have hhead : (s.dropWhile p).head? = some c := by
    obtain ⟨t, ht⟩ := hpre
    rw [← ht, List.head?_append]
    unfold stripBy at h
    rw [h]
    rfl
  have hne : s.dropWhile p ≠ [] := by
    intro hnil
    rw [hnil] at hhead
    simp at hhead
  have hnot := List.head_dropWhile_not p hne
  rw [List.head?_eq_some_head hne] at hhead
  cases hhead
  simpa using hnot

theorem last_stripBy (h : (stripBy p s).getLast? = some c) : p c = false := by
  have hne : stripBy p s ≠ [] := by
    intro hnil
    rw [hnil] at h
    simp at h
  have hnot := List.rdropWhile_last_not p _ hne
  rw [List.getLast?_eq_some_getLast hne] at h
  cases h
  simpa [stripBy] using hnot

/-- **Stripping is done once.** -/
theorem stripBy_stripBy : stripBy p (stripBy p s) = stripBy p s :=
  stripBy_eq_self (fun _ h => head_stripBy h) fun _ h => last_stripBy h

theorem strip_strip : strip (strip s) = strip s := stripBy_stripBy

end Strip

end PyText
