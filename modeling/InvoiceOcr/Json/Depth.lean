/-
  File:      InvoiceOcr/Json/Depth.lean
  Subject:   HOW DEEP A JSON TEXT NESTS. The decoder recurses once a container and raises
             `RecursionError`, which is no `ValueError`, where the stack ends. Nothing here names a
             program.

  * `tooDeep` -- the container whose opening finds no level left, the text before it being read
    without an error, as `scanValue` reads it; `tooDeep_brackets` -- closed or not;
  * `Json.height` -- the levels of containers of a value;
  * **`tooDeep_dumps`** -- a printed value is too deep exactly when its height exceeds the levels.
-/
import InvoiceOcr.Json.RoundTrip

namespace PyJson

/-! ## 1. The levels of a text -/

mutual

/-- The container of one value at which `levels` more of them are not enough. -/
def deepValue : Nat → Nat → Str → Option Str
  | 0, _, _ => none
  | n + 1, levels, cs =>
    match skipSpace cs with
    | '[' :: r =>
      match levels with
      | 0 => some "array".toList
      | levels + 1 =>
        match skipSpace r with
        | ']' :: _ => none
        | r => deepItems n levels r
    | '{' :: r =>
      match levels with
      | 0 => some "object".toList
      | levels + 1 =>
        match skipSpace r with
        | '}' :: _ => none
        | r => deepPairs n levels r
    | _ => none

/-- The same of the items of an array from the next one on. -/
def deepItems : Nat → Nat → Str → Option Str
  | 0, _, _ => none
  | n + 1, levels, cs =>
    match deepValue n levels cs with
    | some container => some container
    | none =>
      match scanValue n cs with
      | none => none
      | some (_, r) =>
        match skipSpace r with
        | ',' :: r => deepItems n levels r
        | _ => none

/-- The same of the members of an object from the next one on. -/
def deepPairs : Nat → Nat → Str → Option Str
  | 0, _, _ => none
  | n + 1, levels, cs =>
    match skipSpace cs with
    | '"' :: r =>
      match scanString n r with
      | none => none
      | some (_, r) =>
        match skipSpace r with
        | ':' :: r =>
          match deepValue n levels r with
          | some container => some container
          | none =>
            match scanValue n r with
            | none => none
            | some (_, r) =>
              match skipSpace r with
              | ',' :: r => deepPairs n levels r
              | _ => none
        | _ => none
    | _ => none

end

/-- `json.loads(text)` raises `RecursionError` at this container when the stack holds `levels` more
    of them. A container that is not closed takes two units of fuel a character. -/
def tooDeep (levels : Nat) (text : Str) : Option Str := deepValue (2 * text.length + 2) levels text

/-- Opening brackets one more than the levels are too many, whatever follows them. -/
theorem deepValue_brackets (levels n : Nat) (hn : 2 * levels < n) (r : Str) :
    deepValue n levels (List.replicate (levels + 1) '[' ++ r) = some "array".toList := by
  induction levels generalizing n with
  | zero =>
    obtain ⟨n, rfl⟩ := Nat.exists_eq_succ_of_ne_zero (by omega : n ≠ 0)
    rfl
  | succ levels ih =>
    obtain ⟨n, rfl⟩ : ∃ m, n = m + 2 := ⟨n - 2, by omega⟩
    have hrest := ih n (by omega)
    show deepItems (n + 1) levels (List.replicate (levels + 1) '[' ++ r) = _
    simp only [deepItems, hrest]

theorem tooDeep_brackets (levels : Nat) (r : Str) :
    tooDeep levels (List.replicate (levels + 1) '[' ++ r) = some "array".toList := by
  refine deepValue_brackets levels _ ?_ r
  rw [List.length_append, List.length_replicate]
  omega

/-! ## 2. The height of a value -/

mutual

/-- The levels of containers of a value. -/
def Json.height : Json → Nat
  | .arr xs => heightItems xs + 1
  | .obj kvs => heightPairs kvs + 1
  | _ => 0

def heightItems : List Json → Nat
  | [] => 0
  | x :: xs => max x.height (heightItems xs)

def heightPairs : List (Str × Json) → Nat
  | [] => 0
  | (_, v) :: kvs => max v.height (heightPairs kvs)

end

/-- White space before a value is skipped. -/
theorem deepValue_blank (n levels : Nat) (cs : Str) :
    deepValue n levels (' ' :: cs) = deepValue n levels cs := by
  cases n with
  | zero => rfl
  | succ n => simp only [deepValue, skipSpace_blank]

mutual

/-- **A printed value needs as many levels as it is high**, whatever follows it. -/
theorem deepValue_dumps : ∀ (v : Json) (n levels : Nat) (r : Str), Plain v → (dumps v).length < n →
    (deepValue n levels (dumps v ++ r) = none ↔ v.height ≤ levels)
  | _, 0, _, _, _, hn => absurd hn (Nat.not_lt_zero _)
  | .null, _ + 1, levels, _, _, _ => ⟨fun _ => Nat.zero_le levels, fun _ => rfl⟩
  | .bool true, _ + 1, levels, _, _, _ => ⟨fun _ => Nat.zero_le levels, fun _ => rfl⟩
  | .bool false, _ + 1, levels, _, _, _ => ⟨fun _ => Nat.zero_le levels, fun _ => rfl⟩
  | .num _, _ + 1, _, _, h, _ => h.elim
  | .str _, _ + 1, levels, _, _, _ => ⟨fun _ => Nat.zero_le levels, fun _ => rfl⟩
  | .arr xs, n + 1, 0, r, _, _ => by
    cases xs <;> exact ⟨fun h => (Option.some_ne_none _ h).elim, fun h => absurd h (Nat.not_succ_le_zero _)⟩
  | .obj kvs, n + 1, 0, r, _, _ => by
    cases kvs <;> exact ⟨fun h => (Option.some_ne_none _ h).elim, fun h => absurd h (Nat.not_succ_le_zero _)⟩
  | .arr [], n + 1, levels + 1, r, _, _ => ⟨fun _ => Nat.le_add_left _ _, fun _ => rfl⟩
  | .arr (x :: xs), n + 1, levels + 1, r, h, hn => by
    obtain ⟨c, cs, hx, hsp, hne, _⟩ := dumps_head x h.1
    simp only [dumps, List.length_cons, List.length_append] at hn
    have hitems := deepItems_dumps x xs n levels r h.1 h.2 (by omega)
    rw [hx] at hitems
    simp only [dumps, hx, List.cons_append, List.append_assoc, deepValue] at hitems ⊢
    rw [skipSpace_of_head (by decide)]
    simp only []
    rw [skipSpace_of_head hsp]
    split
    · rename_i heq
      exact absurd (List.cons.inj heq).1 hne
    · rw [hitems]
      simp only [Json.height, heightItems, Nat.add_le_add_iff_right]
  | .obj [], n + 1, levels + 1, r, _, _ => ⟨fun _ => Nat.le_add_left _ _, fun _ => rfl⟩
  | .obj ((k, v) :: kvs), n + 1, levels + 1, r, h, hn => by
    obtain ⟨_, hv, hkvs⟩ := h
    simp only [dumps, List.length_cons, List.length_append] at hn
    have hpairs := deepPairs_dumps k v kvs n levels r hv hkvs (by omega)
    simp only [dumps, dumpsStr, List.cons_append, List.append_assoc, deepValue] at hpairs ⊢
    rw [skipSpace_of_head (by decide)]
    simp only []
    rw [skipSpace_of_head (by decide)]
    split
    · rename_i heq
      exact absurd (List.cons.inj heq).1 (by decide)
    · simp only [List.nil_append] at hpairs ⊢
      rw [hpairs]
      simp only [Json.height, heightPairs, Nat.add_le_add_iff_right]

/-- The printed items of an array, the first included. -/
theorem deepItems_dumps : ∀ (x : Json) (xs : List Json) (n levels : Nat) (r : Str), Plain x →
    PlainItems xs → (dumps x).length + (dumpsItems xs).length < n →
    (deepItems n levels (dumps x ++ (dumpsItems xs ++ r)) = none ↔
      heightItems (x :: xs) ≤ levels)
  | _, _, 0, _, _, _, _, hn => absurd hn (Nat.not_lt_zero _)
  | x, [], n + 1, levels, r, hx, _, hn => by
    simp only [dumpsItems, List.length_cons, List.length_nil] at hn
    have hdeep := deepValue_dumps x n levels (']' :: r) hx (by omega)
    have hv := scanValue_dumps x n (']' :: r) hx (by omega)
    simp only [dumpsItems, List.cons_append, List.nil_append, deepItems, heightItems,
      Nat.max_zero, ← hdeep]
    cases deepValue n levels (dumps x ++ ']' :: r) with
    | some container => simp only [reduceCtorEq]
    | none =>
      simp only [hv]
      rw [skipSpace_of_head (by decide)]
      exact ⟨fun _ => trivial, fun _ => rfl⟩
  | x, y :: ys, n + 1, levels, r, hx, hxs, hn => by
    simp only [dumpsItems, List.length_cons, List.length_append] at hn
    have hdeep := deepValue_dumps x n levels (',' :: ' ' :: (dumps y ++ (dumpsItems ys ++ r))) hx
      (by omega)
    have hv := scanValue_dumps x n (',' :: ' ' :: (dumps y ++ (dumpsItems ys ++ r))) hx (by omega)
    have hrest := deepItems_dumps y ys n levels r hxs.1 hxs.2 (by omega)
    have hblank : deepItems n levels (' ' :: (dumps y ++ (dumpsItems ys ++ r))) =
        deepItems n levels (dumps y ++ (dumpsItems ys ++ r)) := by
      cases n with
      | zero => rfl
      | succ n => simp only [deepItems, deepValue_blank, scanValue_blank]
    rw [heightItems, Nat.max_le, ← hdeep, ← hrest, ← hblank]
    simp only [dumpsItems, List.cons_append, List.append_assoc, deepItems]
    cases deepValue n levels (dumps x ++ ',' :: ' ' :: (dumps y ++ (dumpsItems ys ++ r))) with
    | some container => simp only [reduceCtorEq, false_and]
    | none =>
      simp only [hv]
      rw [skipSpace_of_head (by decide)]
      exact ⟨fun h => ⟨trivial, h⟩, fun h => h.2⟩

/-- The printed members of an object, the first included. -/
theorem deepPairs_dumps : ∀ (k : Str) (v : Json) (kvs : List (Str × Json)) (n levels : Nat)
    (r : Str), Plain v → PlainPairs kvs →
    (dumpsStr k).length + (dumps v).length + (dumpsPairs kvs).length + 2 ≤ n →
    (deepPairs n levels (dumpsStr k ++ (':' :: ' ' :: (dumps v ++ (dumpsPairs kvs ++ r)))) = none ↔
      heightPairs ((k, v) :: kvs) ≤ levels)
  | _, _, _, 0, _, _, _, _, hn => absurd hn (by omega)
  | k, v, kvs, n + 1, levels, r, hv, hkvs, hn => by
    have hlen := length_flatMap_escapeChar k
    have hstr : ∀ t, scanString n (k.flatMap escapeChar ++ '"' :: t) = some (k, t) := fun t =>
      scanString_dumps k t n (by
        simp only [dumpsStr, List.length_cons, List.length_append] at hn
        omega)
    simp only [dumpsStr, List.cons_append, List.append_assoc, List.nil_append, deepPairs]
    rw [skipSpace_of_head (by decide)]
    simp only [hstr]
    rw [skipSpace_of_head (by decide)]
    simp only [deepValue_blank, scanValue_blank]
    cases kvs with
    | nil =>
      simp only [dumpsPairs, List.length_cons, List.length_nil] at hn
      have hdeep := deepValue_dumps v n levels ('}' :: r) hv (by omega)
      have hval := scanValue_dumps v n ('}' :: r) hv (by omega)
      simp only [dumpsPairs, List.cons_append, List.nil_append, heightPairs, Nat.max_zero, ← hdeep]
      cases deepValue n levels (dumps v ++ '}' :: r) with
      | some container => simp only [reduceCtorEq]
      | none =>
        simp only [hval]
        rw [skipSpace_of_head (by decide)]
        exact ⟨fun _ => trivial, fun _ => rfl⟩
    | cons p kvs =>
      obtain ⟨k', v'⟩ := p
      simp only [dumpsPairs, List.length_cons, List.length_append] at hn
      have hrest := deepPairs_dumps k' v' kvs n levels r hkvs.1 hkvs.2 (by omega)
      have hblank : ∀ t, deepPairs n levels (' ' :: t) = deepPairs n levels t := by
        intro t
        cases n with
        | zero => rfl
        | succ n => simp only [deepPairs, skipSpace_blank]
      simp only [dumpsPairs, List.cons_append, List.append_assoc]
      have hdeep := deepValue_dumps v n levels (',' :: ' ' :: (dumpsStr k' ++
        (':' :: ' ' :: (dumps v' ++ (dumpsPairs kvs ++ r))))) hv (by omega)
      have hval := scanValue_dumps v n (',' :: ' ' :: (dumpsStr k' ++
        (':' :: ' ' :: (dumps v' ++ (dumpsPairs kvs ++ r))))) hv (by omega)
      rw [heightPairs, Nat.max_le, ← hdeep, ← hrest, ← hblank]
      cases deepValue n levels (dumps v ++ ',' :: ' ' :: (dumpsStr k' ++
        (':' :: ' ' :: (dumps v' ++ (dumpsPairs kvs ++ r))))) with
      | some container => simp only [reduceCtorEq, false_and]
      | none =>
        simp only [hval]
        rw [skipSpace_of_head (by decide)]
        exact ⟨fun h => ⟨trivial, h⟩, fun h => h.2⟩

end

/-- **A printed value is too deep exactly when it is higher than the levels left.** -/
theorem tooDeep_dumps {v : Json} (h : Plain v) (levels : Nat) :
    tooDeep levels (dumps v) = none ↔ v.height ≤ levels := by
  have hv := deepValue_dumps v (2 * (dumps v).length + 2) levels [] h (by omega)
  rwa [List.append_nil] at hv

end PyJson
