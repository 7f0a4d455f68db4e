/-
  File:      InvoiceOcr/Json/RoundTrip.lean
  Subject:   `loads` UNDOES `dumps` on every value made of texts, lists and dicts: `loads_dumps`.

  The proof follows the printer: one escaped character is read back as that character
  (`readChar_escapeChar`), so a printed string is (`scanString_dumps`), so a printed value is, by
  recursion on the value (`scanValue_dumps`), whatever text follows it. Fuel one above the length
  of the text is enough, because every value prints at least one character a level.
-/
import InvoiceOcr.Json.Value

namespace PyJson

/-! ## 1. Characters -/

theorem hexValue_hexDigit : ∀ n, n < 16 → hexValue (hexDigit n) = some n := by decide

/-- Four printed digits are read back. -/
theorem readUnit_digits {n : Nat} (hn : n < 65536) (r : Str) :
    readUnit (hexDigit (n / 4096 % 16) :: hexDigit (n / 256 % 16) :: hexDigit (n / 16 % 16) ::
      hexDigit (n % 16) :: r) = some (n, r) := by
  have h3 := hexValue_hexDigit (n / 4096 % 16) (Nat.mod_lt _ (by decide))
  have h2 := hexValue_hexDigit (n / 256 % 16) (Nat.mod_lt _ (by decide))
  have h1 := hexValue_hexDigit (n / 16 % 16) (Nat.mod_lt _ (by decide))
  have h0 := hexValue_hexDigit (n % 16) (Nat.mod_lt _ (by decide))
  have hsum : n / 4096 % 16 * 4096 + n / 256 % 16 * 256 + n / 16 % 16 * 16 + n % 16 = n := by omega
  simp only [readUnit, h3, h2, h1, h0, Option.bind_eq_bind, Option.bind_some, hsum]
  rfl

/-- A `Char` is no surrogate and lies below U+110000. -/
theorem char_range (c : Char) : c.toNat < 55296 ∨ 57343 < c.toNat ∧ c.toNat < 1114112 :=
  c.valid

/-- A character below U+10000, written as one unit, is read back. -/
theorem readUnicode_unit {c : Char} (hc : c.toNat < 65536) (r : Str) :
    readUnicode ((escapeUnit c.toNat).drop 2 ++ r) = some (c, r) := by
  have hv := char_range c
  have h1 : ¬ (55296 ≤ c.toNat ∧ c.toNat < 56320) := by omega
  have h2 : ¬ (56320 ≤ c.toNat ∧ c.toNat < 57344) := by omega
  simp only [escapeUnit, List.drop_succ_cons, List.drop_zero, List.cons_append, List.nil_append,
    readUnicode, readUnit_digits hc, Option.bind_eq_bind, Option.bind_some, h1, h2, if_false]
  rw [Char.ofNat_toNat]
  rfl

/-- Two units that form a surrogate pair are read as one character. -/
theorem readUnicode_surrogates {n m : Nat} (hn : 55296 ≤ n ∧ n < 56320)
    (hm : 56320 ≤ m ∧ m < 57344) (r : Str) :
    readUnicode ((escapeUnit n).drop 2 ++ (escapeUnit m ++ r)) =
      some (Char.ofNat (65536 + (n - 55296) * 1024 + (m - 56320)), r) := by
  have hn' : n < 65536 := Nat.lt_trans hn.2 (by decide)
  have hm' : m < 65536 := Nat.lt_trans hm.2 (by decide)
  simp only [escapeUnit, List.drop_succ_cons, List.drop_zero, List.cons_append, List.nil_append,
    readUnicode, readUnit_digits hn', readUnit_digits hm', Option.bind_eq_bind, Option.bind_some]
  rw [if_pos hn, if_pos hm]
  rfl

/-- A character from U+10000 on, written as a surrogate pair, is read back. -/
theorem readUnicode_pair {c : Char} (hc : ¬ c.toNat < 65536) (r : Str) :
    readUnicode ((escapeUnit (55296 + (c.toNat - 65536) / 1024)).drop 2 ++
      (escapeUnit (56320 + (c.toNat - 65536) % 1024) ++ r)) = some (c, r) := by
  have hv := char_range c
  have hn : 55296 ≤ 55296 + (c.toNat - 65536) / 1024 ∧
      55296 + (c.toNat - 65536) / 1024 < 56320 := ⟨by omega, by omega⟩
  have hm : 56320 ≤ 56320 + (c.toNat - 65536) % 1024 ∧
      56320 + (c.toNat - 65536) % 1024 < 57344 := ⟨by omega, by omega⟩
  have hsum : 65536 + (55296 + (c.toNat - 65536) / 1024 - 55296) * 1024 +
      (56320 + (c.toNat - 65536) % 1024 - 56320) = c.toNat := by omega
  rw [readUnicode_surrogates hn hm r, hsum, Char.ofNat_toNat]

/-- **One escaped character is read back**, and does not open with a quote. -/
theorem readChar_escapeChar (c : Char) (r : Str) :
    ∃ d ds, escapeChar c = d :: ds ∧ d ≠ '"' ∧ readChar d (ds ++ r) = some (c, r) := by
  unfold escapeChar
  split_ifs with h1 h2 h3 h4 h5 h6 h7 h8 h9
  · exact ⟨_, _, rfl, by decide, by subst h1; rfl⟩
  · exact ⟨_, _, rfl, by decide, by subst h2; rfl⟩
  · exact ⟨_, _, rfl, by decide, by subst h3; rfl⟩
  · exact ⟨_, _, rfl, by decide, by subst h4; rfl⟩
  · exact ⟨_, _, rfl, by decide, by subst h5; rfl⟩
  · exact ⟨_, _, rfl, by decide, by subst h6; rfl⟩
  · exact ⟨_, _, rfl, by decide, by subst h7; rfl⟩
  · refine ⟨c, [], rfl, h1, ?_⟩
    have h32 : ¬ c.toNat < 32 := by omega
    simp only [readChar, h2, h32, if_false, List.nil_append]
  · exact ⟨_, _, rfl, by decide, readUnicode_unit h9 r⟩
  · refine ⟨_, _, rfl, by decide, ?_⟩
    have h := readUnicode_pair h9 r
    rw [← List.append_assoc] at h
    exact h

/-! ## 2. Strings -/

/-- **A printed string is read back.** -/
theorem scanString_dumps (s r : Str) : ∀ n, s.length < n →
    scanString n (s.flatMap escapeChar ++ '"' :: r) = some (s, r) := by
  induction s with
  | nil =>
    intro n hn
    obtain ⟨n, rfl⟩ := Nat.exists_eq_succ_of_ne_zero (by omega : n ≠ 0)
    rfl
  | cons c s ih =>
    intro n hn
    obtain ⟨n, rfl⟩ := Nat.exists_eq_succ_of_ne_zero (by omega : n ≠ 0)
    obtain ⟨d, ds, he, hq, hr⟩ := readChar_escapeChar c (s.flatMap escapeChar ++ '"' :: r)
    have hs := ih n (by simpa using hn)
    simp only [List.flatMap_cons, he, List.cons_append, List.append_assoc, scanString, hq, if_false,
      hr, hs]

/-- A printed character takes at least one place. -/
theorem length_flatMap_escapeChar (s : Str) : s.length ≤ (s.flatMap escapeChar).length := by
  induction s with
  | nil => exact Nat.le_refl _
  | cons c s ih =>
    obtain ⟨d, ds, he, _⟩ := readChar_escapeChar c []
    simp only [List.flatMap_cons, he, List.length_append, List.length_cons]
    omega

/-! ## 3. Dicts -/

/-- The keys of a dict. -/
def Dict.keys (d : Dict) : List Str := d.map Prod.fst

/-- A new key goes to the end. -/
theorem dict_set_new {d : Dict} {k : Str} (hk : k ∉ d.keys) (v : Json) :
    d.set k v = d ++ [(k, v)] := by
  induction d with
  | nil => rfl
  | cons p d ih =>
    obtain ⟨k', v'⟩ := p
    simp only [Dict.keys, List.map_cons, List.mem_cons, not_or] at hk
    have hne : ¬ k' = k := fun h => hk.1 h.symm
    simp only [Dict.set, hne, if_false, List.cons_append]
    rw [ih hk.2]

/-! ## 4. Values -/

mutual

/-- A value without numbers whose objects repeat no key. -/
def Plain : Json → Prop
  | .num _ => False
  | .arr xs => PlainItems xs
  | .obj kvs => (Dict.keys kvs).Nodup ∧ PlainPairs kvs
  | _ => True

def PlainItems : List Json → Prop
  | [] => True
  | x :: xs => Plain x ∧ PlainItems xs

def PlainPairs : List (Str × Json) → Prop
  | [] => True
  | (_, v) :: kvs => Plain v ∧ PlainPairs kvs

end

/-- A printed value does not open with white space or a closing bracket. -/
theorem dumps_head : ∀ v : Json, Plain v →
    ∃ c cs, dumps v = c :: cs ∧ isSpace c = false ∧ c ≠ ']' ∧ c ≠ '}'
  | .null, _ => ⟨_, _, rfl, by decide, by decide, by decide⟩
  | .bool true, _ => ⟨_, _, rfl, by decide, by decide, by decide⟩
  | .bool false, _ => ⟨_, _, rfl, by decide, by decide, by decide⟩
  | .num _, h => h.elim
  | .str _, _ => ⟨_, _, rfl, by decide, by decide, by decide⟩
  | .arr [], _ => ⟨_, _, rfl, by decide, by decide, by decide⟩
  | .arr (_ :: _), _ => ⟨_, _, rfl, by decide, by decide, by decide⟩
  | .obj [], _ => ⟨_, _, rfl, by decide, by decide, by decide⟩
  | .obj (_ :: _), _ => ⟨_, _, rfl, by decide, by decide, by decide⟩

theorem skipSpace_of_head {c : Char} (h : isSpace c = false) (cs : Str) :
    skipSpace (c :: cs) = c :: cs := by
  simp only [skipSpace, List.dropWhile_cons, h, Bool.false_eq_true, if_false]

theorem skipSpace_blank (cs : Str) : skipSpace (' ' :: cs) = skipSpace cs := rfl

/-- White space before a value is skipped by the scanner itself. -/
theorem scanValue_blank (n : Nat) (cs : Str) : scanValue n (' ' :: cs) = scanValue n cs := by
  cases n with
  | zero => rfl
  | succ n => simp only [scanValue, skipSpace_blank]

mutual

/-- **A printed value is read back, whatever follows it.** -/
theorem scanValue_dumps : ∀ (v : Json) (n : Nat) (r : Str), Plain v → (dumps v).length < n →
    scanValue n (dumps v ++ r) = some (v, r)
  | _, 0, _, _, hn => absurd hn (Nat.not_lt_zero _)
  | .null, n + 1, r, _, _ => rfl
  | .bool true, n + 1, r, _, _ => rfl
  | .bool false, n + 1, r, _, _ => rfl
  | .num _, _ + 1, _, h, _ => h.elim
  | .str s, n + 1, r, _, hn => by
    have hlen := length_flatMap_escapeChar s
    simp only [dumps, dumpsStr, List.length_cons, List.length_append, List.length_nil] at hn
    have hs := scanString_dumps s r n (by omega)
    simp only [dumps, dumpsStr, List.cons_append, List.append_assoc, List.nil_append, scanValue]
    rw [skipSpace_of_head (by decide)]
    simp only [if_true, hs, Option.map_some]
  | .arr [], n + 1, r, _, _ => rfl
  | .arr (x :: xs), n + 1, r, h, hn => by
    obtain ⟨c, cs, hx, hsp, hne, _⟩ := dumps_head x h.1
    simp only [dumps, List.length_cons, List.length_append] at hn
    have hitems := scanItems_dumps x xs n r h.1 h.2 (by omega)
    rw [hx] at hitems
    simp only [dumps, hx, List.cons_append, List.append_assoc, scanValue] at hitems ⊢
    rw [skipSpace_of_head (by decide)]
    simp only [Char.reduceEq, if_false, if_true]
    rw [skipSpace_of_head hsp]
    split
    · rename_i heq
      exact absurd (List.cons.inj heq).1 hne
    · rw [hitems]
      rfl
  | .obj [], n + 1, r, _, _ => rfl
  | .obj ((k, v) :: kvs), n + 1, r, h, hn => by
    obtain ⟨hnd, hv, hkvs⟩ := h
    simp only [dumps, List.length_cons, List.length_append] at hn
    have hpairs := scanPairs_dumps k v kvs [] n r hv hkvs hnd (fun _ h => absurd h List.not_mem_nil)
      (by omega)
    simp only [dumps, dumpsStr, List.cons_append, List.append_assoc, scanValue] at hpairs ⊢
    rw [skipSpace_of_head (by decide)]
    simp only [Char.reduceEq, if_false, if_true]
    rw [skipSpace_of_head (by decide)]
    split
    · rename_i heq
      exact absurd (List.cons.inj heq).1 (by decide)
    · simp only [List.nil_append] at hpairs ⊢
      rw [hpairs]
      rfl

/-- The printed items of an array, the first included, are read back. -/
theorem scanItems_dumps : ∀ (x : Json) (xs : List Json) (n : Nat) (r : Str), Plain x →
    PlainItems xs → (dumps x).length + (dumpsItems xs).length < n →
    scanItems n (dumps x ++ (dumpsItems xs ++ r)) = some (x :: xs, r)
  | _, _, 0, _, _, _, hn => absurd hn (Nat.not_lt_zero _)
  | x, [], n + 1, r, hx, _, hn => by
    simp only [dumpsItems, List.length_cons, List.length_nil] at hn
    have hv := scanValue_dumps x n (']' :: r) hx (by omega)
    simp only [dumpsItems, List.cons_append, List.nil_append, scanItems, hv]
    rw [skipSpace_of_head (by decide)]
    rfl
  | x, y :: ys, n + 1, r, hx, hxs, hn => by
    simp only [dumpsItems, List.length_cons, List.length_append] at hn
    have hv := scanValue_dumps x n (',' :: ' ' :: (dumps y ++ (dumpsItems ys ++ r))) hx (by omega)
    have hrest := scanItems_dumps y ys n r hxs.1 hxs.2 (by omega)
    simp only [dumpsItems, List.cons_append, List.append_assoc, scanItems, hv]
    rw [skipSpace_of_head (by decide)]
    have hblank : scanItems n (' ' :: (dumps y ++ (dumpsItems ys ++ r))) = some (y :: ys, r) := by
      rw [← hrest]
      cases n with
      | zero => rfl
      | succ n => simp only [scanItems, scanValue_blank]
    simp only [hblank, Option.map_some]

/-- The printed members of an object, the first included, are read back after those in `d`. -/
theorem scanPairs_dumps : ∀ (k : Str) (v : Json) (kvs : List (Str × Json)) (d : Dict) (n : Nat)
    (r : Str), Plain v → PlainPairs kvs → (Dict.keys ((k, v) :: kvs)).Nodup →
    (∀ x ∈ Dict.keys d, x ∉ Dict.keys ((k, v) :: kvs)) →
    (dumpsStr k).length + (dumps v).length + (dumpsPairs kvs).length + 2 ≤ n →
    scanPairs n d (dumpsStr k ++ (':' :: ' ' :: (dumps v ++ (dumpsPairs kvs ++ r)))) =
      some (d ++ (k, v) :: kvs, r)
  | _, _, _, _, 0, _, _, _, _, _, hn => absurd hn (by omega)
  | k, v, kvs, d, n + 1, r, hv, hkvs, hnd, hd, hn => by
    have hk : k ∉ d.keys := fun h => hd k h (by simp [Dict.keys])
    have hlen := length_flatMap_escapeChar k
    have hstr : ∀ t, scanString n (k.flatMap escapeChar ++ '"' :: t) = some (k, t) := fun t =>
      scanString_dumps k t n (by
        simp only [dumpsStr, List.length_cons, List.length_append] at hn
        omega)
    simp only [dumpsStr, List.cons_append, List.append_assoc, List.nil_append, scanPairs]
    rw [skipSpace_of_head (by decide)]
    simp only [hstr]
    rw [skipSpace_of_head (by decide)]
    simp only [scanValue_blank]
    cases kvs with
    | nil =>
      simp only [dumpsPairs, List.length_cons, List.length_nil] at hn
      have hval := scanValue_dumps v n ('}' :: r) hv (by omega)
      simp only [dumpsPairs, List.cons_append, List.nil_append, hval]
      rw [skipSpace_of_head (by decide)]
      simp only [dict_set_new hk]
    | cons p kvs =>
      obtain ⟨k', v'⟩ := p
      simp only [dumpsPairs, List.length_cons, List.length_append] at hn
      have hval := scanValue_dumps v n (',' :: ' ' :: (dumpsStr k' ++
        (':' :: ' ' :: (dumps v' ++ (dumpsPairs kvs ++ r))))) hv (by omega)
      have hnd' : (Dict.keys ((k', v') :: kvs)).Nodup := (List.nodup_cons.mp hnd).2
      have hd' : ∀ x ∈ Dict.keys (d ++ [(k, v)]), x ∉ Dict.keys ((k', v') :: kvs) := by
        intro x hx
        simp only [Dict.keys, List.map_append, List.map_cons, List.map_nil, List.mem_append,
          List.mem_singleton] at hx
        rcases hx with hx | rfl
        · exact fun h => hd x hx (List.mem_cons_of_mem _ h)
        · exact (List.nodup_cons.mp hnd).1
      have hrest := scanPairs_dumps k' v' kvs (d ++ [(k, v)]) n r hkvs.1 hkvs.2 hnd' hd' (by omega)
      simp only [dumpsPairs, List.cons_append, List.append_assoc, hval]
      rw [skipSpace_of_head (by decide)]
      have hblank : ∀ t, scanPairs n (d ++ [(k, v)]) (' ' :: t) = scanPairs n (d ++ [(k, v)]) t := by
        intro t
        cases n with
        | zero => rfl
        | succ n => simp only [scanPairs, skipSpace_blank]
      simp only [dict_set_new hk, hblank, hrest]
      simp

end

/-- **`loads` undoes `dumps`** on every value made of texts, lists and dicts. -/
theorem loads_dumps {v : Json} (h : Plain v) : loads (dumps v) = some v := by
  have hv := scanValue_dumps v ((dumps v).length + 1) [] h (Nat.lt_succ_self _)
  rw [List.append_nil] at hv
  simp only [loads, hv]
  rfl

end PyJson
