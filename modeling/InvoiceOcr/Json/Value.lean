/-
  File:      InvoiceOcr/Json/Value.lean
  Subject:   JSON VALUES, `dumps` AND `loads`, as the standard library's `json` module has them.
             Nothing here names a program.

  * `Json` -- the values; an object keeps its keys in insertion order, as a `dict` does, and a
    number keeps the text it was written with;
  * `dumps` -- default separators, `ensure_ascii`: every character outside `' '..'~'` is escaped,
    above U+FFFF as a surrogate pair;
  * `loads` -- the decoder. A repeated key keeps its first place and its last value. A lone
    surrogate, which no `Char` is, is refused. The scanners take fuel, one unit a character; what a
    text that nests too deep for the stack does is told apart in Json/Depth.lean.
-/
import Mathlib.Data.List.Basic

namespace PyJson

/-- A text: the code points of a `str`. -/
abbrev Str := List Char

inductive Json where
  | null
  | bool (b : Bool)
  | num (lexeme : Str)
  | str (s : Str)
  | arr (xs : List Json)
  | obj (kvs : List (Str × Json))

/-- A `dict` of JSON values. -/
abbrev Dict := List (Str × Json)

/-- `d.get(k)`. -/
def Dict.get? (d : Dict) (k : Str) : Option Json :=
  match d with
  | [] => none
  | (k', v) :: d => if k' = k then some v else Dict.get? d k

/-- `d[k] = v`: a present key keeps its place. -/
def Dict.set (d : Dict) (k : Str) (v : Json) : Dict :=
  match d with
  | [] => [(k, v)]
  | (k', v') :: d => if k' = k then (k, v) :: d else (k', v') :: Dict.set d k v

/-! ## 1. Writing -/

/-- The lower-case hexadecimal digit of a number below 16. -/
def hexDigit (n : Nat) : Char :=
  if n < 10 then Char.ofNat (48 + n) else Char.ofNat (87 + n)

/-- `\uXXXX`. -/
def escapeUnit (n : Nat) : Str :=
  ['\\', 'u', hexDigit (n / 4096 % 16), hexDigit (n / 256 % 16), hexDigit (n / 16 % 16),
    hexDigit (n % 16)]

/-- One character inside a JSON string, `ensure_ascii`. -/
def escapeChar (c : Char) : Str :=
  if c = '"' then ['\\', '"']
  else if c = '\\' then ['\\', '\\']
  else if c = '\n' then ['\\', 'n']
  else if c = '\r' then ['\\', 'r']
  else if c = '\t' then ['\\', 't']
  else if c = '\x0c' then ['\\', 'f']
  else if c = '\x08' then ['\\', 'b']
  else if 32 ≤ c.toNat ∧ c.toNat ≤ 126 then [c]
  else if c.toNat < 65536 then escapeUnit c.toNat
  else escapeUnit (55296 + (c.toNat - 65536) / 1024) ++ escapeUnit (56320 + (c.toNat - 65536) % 1024)

def dumpsStr (s : Str) : Str := '"' :: (s.flatMap escapeChar ++ ['"'])

mutual

/-- `json.dumps(v)`. -/
def dumps : Json → Str
  | .null => ['n', 'u', 'l', 'l']
  | .bool true => ['t', 'r', 'u', 'e']
  | .bool false => ['f', 'a', 'l', 's', 'e']
  | .num l => l
  | .str s => dumpsStr s
  | .arr [] => ['[', ']']
  | .arr (x :: xs) => '[' :: (dumps x ++ dumpsItems xs)
  | .obj [] => ['{', '}']
  | .obj ((k, v) :: kvs) => '{' :: (dumpsStr k ++ (':' :: ' ' :: (dumps v ++ dumpsPairs kvs)))

/-- The items after the first, and the closing bracket. -/
def dumpsItems : List Json → Str
  | [] => [']']
  | x :: xs => ',' :: ' ' :: (dumps x ++ dumpsItems xs)

/-- The members after the first, and the closing brace. -/
def dumpsPairs : List (Str × Json) → Str
  | [] => ['}']
  | (k, v) :: kvs => ',' :: ' ' :: (dumpsStr k ++ (':' :: ' ' :: (dumps v ++ dumpsPairs kvs)))

end

/-! ## 2. Reading -/

def isSpace (c : Char) : Bool := c = ' ' || c = '\n' || c = '\r' || c = '\t'

def skipSpace (cs : Str) : Str := cs.dropWhile isSpace

/-- The value of a hexadecimal digit, either case. -/
def hexValue (c : Char) : Option Nat :=
  if '0' ≤ c ∧ c ≤ '9' then some (c.toNat - 48)
  else if 'a' ≤ c ∧ c ≤ 'f' then some (c.toNat - 87)
  else if 'A' ≤ c ∧ c ≤ 'F' then some (c.toNat - 55)
  else none

/-- Four hexadecimal digits. -/
def readUnit : Str → Option (Nat × Str)
  | a :: b :: c :: d :: r => do
    let a ← hexValue a
    let b ← hexValue b
    let c ← hexValue c
    let d ← hexValue d
    return (a * 4096 + b * 256 + c * 16 + d, r)
  | _ => none

/-- The character after `\u`: a code unit, or two that form a surrogate pair. -/
def readUnicode (cs : Str) : Option (Char × Str) := do
  let (n, r) ← readUnit cs
  if 55296 ≤ n ∧ n < 56320 then
    match r with
    | '\\' :: 'u' :: r =>
      let (m, r) ← readUnit r
      if 56320 ≤ m ∧ m < 57344 then
        return (Char.ofNat (65536 + (n - 55296) * 1024 + (m - 56320)), r)
      else none
    | _ => none
  else if 56320 ≤ n ∧ n < 57344 then none
  else return (Char.ofNat n, r)

/-- The character after a backslash. -/
def readEscape : Str → Option (Char × Str)
  | '"' :: r => some ('"', r)
  | '\\' :: r => some ('\\', r)
  | '/' :: r => some ('/', r)
  | 'b' :: r => some ('\x08', r)
  | 'f' :: r => some ('\x0c', r)
  | 'n' :: r => some ('\n', r)
  | 'r' :: r => some ('\r', r)
  | 't' :: r => some ('\t', r)
  | 'u' :: r => readUnicode r
  | _ => none

/-- One character of a string whose first written character is `c`. -/
def readChar (c : Char) (r : Str) : Option (Char × Str) :=
  if c = '\\' then readEscape r else if c.toNat < 32 then none else some (c, r)

/-- A string, after its opening quote. -/
def scanString : Nat → Str → Option (Str × Str)
  | 0, _ => none
  | _ + 1, [] => none
  | n + 1, c :: r =>
    if c = '"' then some ([], r)
    else match readChar c r with
      | none => none
      | some (ch, r) =>
        match scanString n r with
        | none => none
        | some (s, r) => some (ch :: s, r)

/-- `sys.get_int_max_str_digits()`. -/
def maxStrDigits : Nat := 4300

/-- `r'(-?(?:0|[1-9]\d*))(\.\d+)?([eE][-+]?\d+)?'`, the longest match. An integer with more digits
    than `int` takes is refused: `ValueError`. -/
def scanNumber (cs : Str) : Option (Str × Str) :=
  let (sign, r) := match cs with
    | '-' :: r => (['-'], r)
    | r => ([], r)
  let digits : Str := match r with
    | '0' :: _ => ['0']
    | r => r.takeWhile Char.isDigit
  if digits = [] then none
  else
    let r := r.drop digits.length
    let frac : Str := match r with
      | '.' :: r' => if r'.takeWhile Char.isDigit = [] then [] else '.' :: r'.takeWhile Char.isDigit
      | _ => []
    let r := r.drop frac.length
    let expo : Str := match r with
      | e :: r' =>
        if e = 'e' ∨ e = 'E' then
          let mark : Str := match r' with
            | '-' :: _ => ['-']
            | '+' :: _ => ['+']
            | _ => []
          let ds := (r'.drop mark.length).takeWhile Char.isDigit
          if ds = [] then [] else e :: (mark ++ ds)
        else []
      | [] => []
    if frac = [] ∧ expo = [] ∧ maxStrDigits < digits.length then none
    else some (sign ++ digits ++ frac ++ expo, r.drop expo.length)

/-- A value that is neither a string nor a container. -/
def scanAtom (cs : Str) : Option (Json × Str) :=
  match cs with
  | 'n' :: 'u' :: 'l' :: 'l' :: r => some (.null, r)
  | 't' :: 'r' :: 'u' :: 'e' :: r => some (.bool true, r)
  | 'f' :: 'a' :: 'l' :: 's' :: 'e' :: r => some (.bool false, r)
  | 'N' :: 'a' :: 'N' :: r => some (.num "NaN".toList, r)
  | 'I' :: 'n' :: 'f' :: 'i' :: 'n' :: 'i' :: 't' :: 'y' :: r => some (.num "Infinity".toList, r)
  | '-' :: 'I' :: 'n' :: 'f' :: 'i' :: 'n' :: 'i' :: 't' :: 'y' :: r =>
    some (.num "-Infinity".toList, r)
  | _ => (scanNumber cs).map fun (l, r) => (.num l, r)

mutual

/-- One value, white space before it allowed. -/
def scanValue : Nat → Str → Option (Json × Str)
  | 0, _ => none
  | n + 1, cs =>
    match skipSpace cs with
    | [] => none
    | c :: r =>
      if c = '"' then (scanString n r).map fun (s, r) => (.str s, r)
      else if c = '[' then
        match skipSpace r with
        | ']' :: r => some (.arr [], r)
        | r => (scanItems n r).map fun (xs, r) => (.arr xs, r)
      else if c = '{' then
        match skipSpace r with
        | '}' :: r => some (.obj [], r)
        | r => (scanPairs n [] r).map fun (d, r) => (.obj d, r)
      else scanAtom (c :: r)

/-- The items of an array from the next one on. -/
def scanItems : Nat → Str → Option (List Json × Str)
  | 0, _ => none
  | n + 1, cs =>
    match scanValue n cs with
    | none => none
    | some (v, r) =>
      match skipSpace r with
      | ',' :: r => (scanItems n r).map fun (vs, r) => (v :: vs, r)
      | ']' :: r => some ([v], r)
      | _ => none

/-- The members of an object from the next one on, with those read before. -/
def scanPairs : Nat → Dict → Str → Option (Dict × Str)
  | 0, _, _ => none
  | n + 1, d, cs =>
    match skipSpace cs with
    | '"' :: r =>
      match scanString n r with
      | none => none
      | some (k, r) =>
        match skipSpace r with
        | ':' :: r =>
          match scanValue n r with
          | none => none
          | some (v, r) =>
            match skipSpace r with
            | ',' :: r => scanPairs n (d.set k v) r
            | '}' :: r => some (d.set k v, r)
            | _ => none
        | _ => none
    | _ => none

end

/-- `json.loads(text)` where the stack is deep enough for the text; `none` is `ValueError`, of which
    `JSONDecodeError` is one. -/
def loads (text : Str) : Option Json :=
  match scanValue (text.length + 1) text with
  | none => none
  | some (v, r) => if skipSpace r = [] then some v else none

end PyJson
