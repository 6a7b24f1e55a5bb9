import Mathlib.Data.List.Sort
import Mathlib.Data.List.Lex

/-!
# Python text

`Text` is Python's `str`: a list of code points, lone surrogates included.
`utf8` and `utf8Escape` are the strict and the `surrogateescape` encoder. On
text without surrogates both are the same function, and it is strictly
monotone: comparing encoded bytes (SQLite's `BINARY` collation) is comparing
code points (Python's `<` on `str`).
-/

namespace Py

/-- A Unicode code point; `str` also holds the surrogates. -/
abbrev CodePoint := Fin 0x110000

abbrev Text := List CodePoint

abbrev Byte := Fin 256

/-! Instances of their own, so that a literal and a comparison are the same term in every module. -/

instance neZero_codePoint : @NeZero Nat Zero.ofOfNat0 0x110000 := ⟨by decide⟩
instance neZero_byte : @NeZero Nat Zero.ofOfNat0 256 := ⟨by decide⟩
instance : LawfulBEq CodePoint := inferInstance
instance : LawfulBEq Text := inferInstance
instance : LawfulBEq (Text × Text) := inferInstance

theorem byte_lt (b : Byte) : b.val < 0x110000 := Nat.lt_trans b.isLt (by decide)

theorem lower_lt {c : CodePoint} (h : 65 ≤ c.val ∧ c.val ≤ 90) : c.val + 32 < 0x110000 := by omega

theorem char_lt (c : Char) : c.toNat < 0x110000 := by
  rcases c.valid with h | h
  · exact Nat.lt_trans h (by decide)
  · exact h.2

def ch (c : Char) : CodePoint := ⟨c.toNat, char_lt c⟩

/-- A source literal. -/
def txt (s : String) : Text := s.toList.map ch

/-! ## Source literals

What holds of a literal is shown of its characters; to evaluate `txt` is to decode
the string.
-/

theorem ch_inj {c d : Char} (h : ch c = ch d) : c = d := by
  have hval := congrArg (fun point : CodePoint => point.val) h
  exact Char.toNat_inj.1 hval

theorem txt_inj {s t : String} : txt s = txt t ↔ s = t := by
  rw [txt, txt, List.map_inj_right fun _ _ => ch_inj, String.toList_inj]

/-- The characters of a literal; the list is found by unification. -/
theorem txt_ofList (cs : List Char) : txt (String.ofList cs) = cs.map ch := by rw [txt, String.toList_ofList]

theorem all_txt {cs : List Char} {p : CodePoint → Bool} (h : (cs.all fun c => p (ch c)) = true) :
    (txt (String.ofList cs)).all p = true := by
  rw [txt_ofList, List.all_map]
  exact h

namespace Text

def isSurrogate (c : CodePoint) : Bool := 0xD800 ≤ c.val && c.val ≤ 0xDFFF

/-- Accepted by `str.encode("utf-8")`. -/
def encodable (s : Text) : Bool := s.all fun c => !isSurrogate c

theorem encodable_cons {c : CodePoint} {s : Text} :
    encodable (c :: s) = true ↔ isSurrogate c = false ∧ encodable s = true := by
  simp [encodable]

theorem encodable_append {s t : Text} :
    encodable (s ++ t) = true ↔ encodable s = true ∧ encodable t = true := by
  simp [encodable]

/-- No character is a surrogate. -/
theorem encodable_txt (s : String) : encodable (txt s) = true := by
  rw [encodable, List.all_eq_true, txt, List.forall_mem_map]
  intro c _
  have hc : c.toNat < 0xd800 ∨ 0xdfff < c.toNat ∧ c.toNat < 0x110000 := c.valid
  have hval : (ch c).val = c.toNat := rfl
  rw [isSurrogate, Bool.not_eq_true', Bool.and_eq_false_iff, decide_eq_false_iff_not, decide_eq_false_iff_not, hval]
  omega

/-! ## UTF-8 -/

private def byte (n : Nat) : Byte := Fin.ofNat 256 n

/-- The UTF-8 bytes of one code point. -/
def utf8Point (c : CodePoint) : List Byte :=
  if c.val < 0x80 then [byte c.val]
  else if c.val < 0x800 then [byte (0xC0 + c.val / 64), byte (0x80 + c.val % 64)]
  else if c.val < 0x10000 then
    [byte (0xE0 + c.val / 4096), byte (0x80 + c.val / 64 % 64), byte (0x80 + c.val % 64)]
  else
    [byte (0xF0 + c.val / 262144), byte (0x80 + c.val / 4096 % 64),
      byte (0x80 + c.val / 64 % 64), byte (0x80 + c.val % 64)]

def utf8 (s : Text) : List Byte := s.flatMap utf8Point

/-- `str.encode("utf-8")`. -/
def encode (s : Text) : Option (List Byte) := if encodable s then some (utf8 s) else none

/-- One code point under `surrogateescape`: `U+DC80..U+DCFF` is a raw byte. -/
def escapePoint (c : CodePoint) : Option (List Byte) :=
  if 0xDC80 ≤ c.val ∧ c.val ≤ 0xDCFF then some [byte (c.val - 0xDC00)]
  else if isSurrogate c then none
  else some (utf8Point c)

/-- `str.encode("utf-8", "surrogateescape")`. -/
def utf8Escape : Text → Option (List Byte)
  | [] => some []
  | c :: s => do
    let b ← escapePoint c
    let bs ← utf8Escape s
    pure (b ++ bs)

theorem escapePoint_of_not_surrogate {c : CodePoint} (h : isSurrogate c = false) :
    escapePoint c = some (utf8Point c) := by
  have hr : ¬ (0xDC80 ≤ c.val ∧ c.val ≤ 0xDCFF) := by
    simp only [isSurrogate, Bool.and_eq_false_iff, decide_eq_false_iff_not] at h; omega
  rw [escapePoint, if_neg hr, h]; rfl

theorem utf8Escape_of_encodable {s : Text} (h : encodable s = true) :
    utf8Escape s = some (utf8 s) := by
  induction s with
  | nil => rfl
  | cons c s ih =>
    obtain ⟨hc, hs⟩ := encodable_cons.1 h
    simp [utf8Escape, escapePoint_of_not_surrogate hc, ih hs, utf8]

/-! ## Encoding preserves order -/

/-- `a` is below `b` at a first difference, after a common prefix. -/
def Split {α : Type} [LT α] (a b : List α) : Prop :=
  ∃ p x y s t, x < y ∧ a = p ++ x :: s ∧ b = p ++ y :: t

theorem Split.lt {α : Type} [LinearOrder α] {a b : List α} (h : Split a b) (u v : List α) :
    a ++ u < b ++ v := by
  obtain ⟨p, x, y, s, t, hxy, rfl, rfl⟩ := h
  simp only [List.append_assoc, List.cons_append]
  induction p with
  | nil => exact List.Lex.rel hxy
  | cons z p ih => exact List.Lex.cons ih

theorem Split.head {α : Type} [LT α] {x y : α} (h : x < y) (s t : List α) :
    Split (x :: s) (y :: t) := ⟨[], x, y, s, t, h, rfl, rfl⟩

theorem Split.cons {α : Type} [LT α] {a b : List α} (z : α) (h : Split a b) :
    Split (z :: a) (z :: b) := by
  obtain ⟨p, x, y, s, t, hxy, rfl, rfl⟩ := h
  exact ⟨z :: p, x, y, s, t, hxy, rfl, rfl⟩

/-- A code whose words split strictly by the order of their letters is monotone. -/
theorem flatMap_lt {α β : Type} [LinearOrder α] [LinearOrder β] {f : α → List β}
    (hf : ∀ a b, a < b → Split (f a) (f b)) (hne : ∀ a, f a ≠ []) :
    ∀ {s t : List α}, s < t → s.flatMap f < t.flatMap f
  | [], [], h => absurd h (lt_irrefl _)
  | [], b :: t, _ => by
    obtain ⟨x, u, hx⟩ := List.exists_cons_of_ne_nil (hne b)
    rw [List.flatMap_cons, hx]
    exact List.Lex.nil
  | _ :: _, [], h => by cases h
  | a :: s, b :: t, h => by
    rw [List.flatMap_cons, List.flatMap_cons]
    cases h with
    | rel hab => exact (hf a b hab).lt _ _
    | cons hst =>
      have ih := flatMap_lt hf hne hst
      generalize f a = p
      induction p with
      | nil => exact ih
      | cons z p ihp => exact List.Lex.cons ihp

private theorem byte_lt {m n : Nat} (hmn : m < n) (hn : n < 256) : byte m < byte n := by
  simp only [byte, Fin.lt_def, Fin.val_ofNat]
  omega

theorem utf8Point_ne_nil (c : CodePoint) : utf8Point c ≠ [] := by
  unfold utf8Point; split <;> [simp; split <;> [simp; split <;> simp]]

theorem utf8Point_split {c d : CodePoint} (h : c < d) : Split (utf8Point c) (utf8Point d) := by
  have hc := c.isLt; have hd := d.isLt
  have hcd : c.val < d.val := h
  unfold utf8Point
  split_ifs with c1 d1 d2 d3 c2 d1 d2 d3 c3 d1 d2 d3 d1 d2 d3
  all_goals first
    | omega
    | exact .head (byte_lt (by omega) (by omega)) _ _
    | skip
  -- equal lengths: the first differing byte is where the leading digits differ
  · by_cases e : c.val / 64 = d.val / 64
    · rw [e]; exact .cons _ (.head (byte_lt (by omega) (by omega)) _ _)
    · exact .head (byte_lt (by omega) (by omega)) _ _
  · by_cases e : c.val / 4096 = d.val / 4096
    · by_cases e' : c.val / 64 % 64 = d.val / 64 % 64
      · rw [e, e']; exact .cons _ (.cons _ (.head (byte_lt (by omega) (by omega)) _ _))
      · rw [e]; exact .cons _ (.head (byte_lt (by omega) (by omega)) _ _)
    · exact .head (byte_lt (by omega) (by omega)) _ _
  · by_cases e : c.val / 262144 = d.val / 262144
    · by_cases e' : c.val / 4096 % 64 = d.val / 4096 % 64
      · by_cases e'' : c.val / 64 % 64 = d.val / 64 % 64
        · rw [e, e', e'']
          exact .cons _ (.cons _ (.cons _ (.head (byte_lt (by omega) (by omega)) _ _)))
        · rw [e, e']; exact .cons _ (.cons _ (.head (byte_lt (by omega) (by omega)) _ _))
      · rw [e]; exact .cons _ (.head (byte_lt (by omega) (by omega)) _ _)
    · exact .head (byte_lt (by omega) (by omega)) _ _

/-- Byte order of the encodings is code-point order. -/
theorem utf8_lt_iff {s t : Text} : utf8 s < utf8 t ↔ s < t := by
  have mono : ∀ {s t : Text}, s < t → utf8 s < utf8 t :=
    fun h => flatMap_lt (fun _ _ => utf8Point_split) utf8Point_ne_nil h
  refine ⟨fun h => ?_, mono⟩
  rcases lt_trichotomy s t with hlt | rfl | hgt
  · exact hlt
  · exact absurd h (lt_irrefl _)
  · exact absurd (mono hgt) (lt_asymm h)

theorem utf8_injective : Function.Injective utf8 := by
  intro s t h
  rcases lt_trichotomy s t with hlt | rfl | hgt
  · exact absurd (utf8_lt_iff.2 hlt) (by rw [h]; exact lt_irrefl _)
  · rfl
  · exact absurd (utf8_lt_iff.2 hgt) (by rw [h]; exact lt_irrefl _)

theorem utf8_le_iff {s t : Text} : utf8 s ≤ utf8 t ↔ s ≤ t := by
  rw [← not_lt, ← not_lt, utf8_lt_iff]

/-! ## Decimal numerals -/

def digit (n : Nat) : CodePoint := ⟨48 + n % 10, by omega⟩

/-- Digits of `n`, most significant first; `fuel` bounds their number. -/
def digits : Nat → Nat → Text → Text
  | 0, _, acc => acc
  | fuel + 1, n, acc =>
    if n < 10 then digit n :: acc else digits fuel (n / 10) (digit (n % 10) :: acc)

/-- `str(n)` for a non-negative `int`. -/
def ofNat (n : Nat) : Text := digits (n + 1) n []

/-- `str(n)` for an `int`. -/
def ofInt : Int → Text
  | .ofNat n => ofNat n
  | .negSucc n => ch '-' :: ofNat (n + 1)

/-- `f"{n:08d}"`. -/
def pad8 (n : Nat) : Text :=
  let t := ofNat n
  List.replicate (8 - t.length) (digit 0) ++ t

/-! ## Substrings -/

/-- `s.startswith(p)` -/
def startsWith (s p : Text) : Bool := p.isPrefixOf s

/-- `p in s` for two strings. -/
def hasInfix (p : Text) : Text → Bool
  | [] => p.isEmpty
  | c :: s => p.isPrefixOf (c :: s) || hasInfix p s

def endsWith (s p : Text) : Bool := p.isSuffixOf s

/-- `len(s.split("/"))` -/
def splitLen (s : Text) : Nat := s.count (ch '/') + 1

end Text

end Py
