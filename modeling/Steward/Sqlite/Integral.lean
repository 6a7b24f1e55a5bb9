import Steward.Py.Sha256
import Steward.Sqlite.Cell

/-!
# The integral floats

An interpreter that evaluates: floats are NaN, the infinities and the integral
ones, hashing is SHA-256, UUIDs and timestamps are read in their canonical
form. It shows the laws of `Runtime` and `SqliteFloat` to be satisfiable.
-/

namespace Py

inductive Integral where
  | nan
  | posInf
  | negInf
  | whole (n : Int)
  deriving DecidableEq, Repr

namespace Integral

/-- `repr(float(n))` -/
def repr : Integral → Text
  | nan => txt "nan"
  | posInf => txt "inf"
  | negInf => txt "-inf"
  | whole n => Text.ofInt n ++ txt ".0"

/-- The integer part of a literal. -/
def ofLiteral (t : Text) : Integral :=
  match Text.scanNumber t with
  | some (n, _) => whole n.toInt
  | none => nan

def le : Integral → Integral → Bool
  | nan, _ | _, nan => false
  | negInf, _ | _, posInf => true
  | posInf, _ | _, negInf => false
  | whole m, whole n => m ≤ n

def add : Integral → Integral → Integral
  | whole m, whole n => whole (m + n)
  | posInf, negInf | negInf, posInf | nan, _ | _, nan => nan
  | posInf, _ | _, posInf => posInf
  | negInf, _ | _, negInf => negInf

theorem scanNat_ofNat_append (n : Nat) {u : Text} (hu : ∀ c ∈ u.head?, Text.isDigit c = false) :
    Text.scanNat (Text.ofNat n ++ u) = some (Text.ofNat n, u) := by
  rcases Nat.eq_zero_or_pos n with rfl | hn
  · rfl
  · obtain ⟨m, h0, h10, s, hs⟩ := Text.digits_head (Nat.lt_succ_self n) hn []
    have hall : ∀ c ∈ Text.digit m :: s, Text.isDigit c = true := hs ▸ Text.digits_all (by simp)
    have hs' : ∀ c ∈ s, Text.isDigit c = true := fun c hc => hall c (List.mem_cons_of_mem _ hc)
    have hu' : u.takeWhile Text.isDigit = [] ∧ u.dropWhile Text.isDigit = u := by
      cases u with
      | nil => exact ⟨rfl, rfl⟩
      | cons c u => simp [hu c rfl]
    rw [Text.ofNat, Nat.succ_eq_add_one] at *
    rw [hs, List.cons_append, Text.scanNat, if_neg (Text.digit_ne_zero h0 h10),
      if_pos (Text.isDigit_digit m), List.takeWhile_append_of_pos hs',
      List.dropWhile_append_of_pos hs', hu'.1, hu'.2, List.append_nil]

theorem scanUnsigned_whole (b : Bool) (n : Nat) :
    Text.scanUnsigned b (Text.ofNat n ++ txt ".0") =
      some (⟨b, Text.ofNat n, txt ".0", []⟩, []) := by
  rw [Text.scanUnsigned, scanNat_ofNat_append n (by simp [txt, Text.isDigit, ch])]; rfl

/-- The number scanned from a `repr`. -/
def literal (n : Int) : Text.Number := ⟨decide (n < 0), Text.ofNat n.natAbs, txt ".0", []⟩

theorem scanNumber_repr (n : Int) : Text.scanNumber (repr (whole n)) = some (literal n, []) := by
  cases n with
  | ofNat n =>
    obtain ⟨c, s, hc⟩ := List.exists_cons_of_ne_nil (Text.ofNat_ne_nil n)
    have hd : Text.isDigit c = true := Text.ofNat_all n c (by rw [hc]; simp)
    have hm : c ≠ ch '-' := by rintro rfl; exact absurd hd (by decide)
    have := scanUnsigned_whole false n
    rw [repr, Text.ofInt, hc, List.cons_append, Text.scanNumber, if_neg hm]
    rw [hc, List.cons_append] at this
    rw [this, ← hc]
    simp [literal]
  | negSucc n =>
    rw [repr, Text.ofInt, List.cons_append, Text.scanNumber, if_pos rfl, scanUnsigned_whole]
    simp [literal]

theorem literal_toInt (n : Int) : (literal n).toInt = n := by
  simp only [literal, Text.Number.toInt, Text.toNat_ofNat, decide_eq_true_eq]
  split_ifs <;> omega

theorem literal_text (n : Int) : (literal n).text = repr (whole n) := by
  cases n with
  | ofNat n => simp [literal, Text.Number.text, repr, Text.ofInt]
  | negSucc n => simp [literal, Text.Number.text, repr, Text.ofInt]

instance : PyFloat Integral where
  isNan x := x = nan
  isFinite | whole _ => true | _ => false
  isPositive | whole n => 0 < n | posInf => true | _ => false
  isZero x := x = whole 0
  eq x y := x = y && x ≠ nan
  eqInt x n := x = whole n
  le := le
  leInt x n := le x (whole n)
  intLe n x := le (whole n) x
  ofInt n := some (whole n)
  add := add
  repr := repr
  ofLiteral := ofLiteral
  nan := nan
  posInf := posInf
  negInf := negInf
  eq_self x h := by simpa using h
  eqInt_unique x m n h1 h2 := by
    rw [decide_eq_true_eq] at h1 h2
    exact whole.inj (h1.symm.trans h2)
  eqInt_of_eq x y n h1 h2 := by
    rw [Bool.and_eq_true, decide_eq_true_eq] at h1
    rwa [← h1.1]
  not_nan_of_finite x h := by cases x <;> first | rfl | cases h
  repr_encodable x := by
    cases x with
    | whole n => exact Text.encodable_append.2 ⟨Text.ofInt_encodable n, by decide⟩
    | _ => decide
  repr_scan x h := by
    cases x with
    | whole n => exact ⟨literal n, scanNumber_repr n, rfl, literal_text n⟩
    | _ => cases h
  ofLiteral_repr x h := by
    cases x with
    | whole n => rw [ofLiteral, scanNumber_repr]; exact congrArg whole (literal_toInt n)
    | _ => cases h

/-! ## UUIDs and timestamps -/

/-- The text has `c` at the given places, and a character with `p` everywhere else. -/
def patterned (n : Nat) (at' : List (Nat × CodePoint)) (p : CodePoint → Bool) (t : Text) : Bool :=
  t.length = n && t.zipIdx.all fun x => match at'.find? fun a => a.1 = x.2 with
    | some a => x.1 = a.2
    | none => p x.1

/-- The version of a canonical UUID; the variant digit is `8`, `9`, `a` or `b`. -/
def uuidVersion (t : Text) : Option (Option Nat) :=
  if patterned 36 [(8, ch '-'), (13, ch '-'), (18, ch '-'), (23, ch '-')] isHexDigit t then
    some (if (t.drop 19).head? ∈ [some (ch '8'), some (ch '9'), some (ch 'a'), some (ch 'b')] then
      (t.drop 14).head?.map fun c => if Text.isDigit c then c.val - 48 else c.val - 87
    else none)
  else none

/-- `YYYY-MM-DDTHH:MM:SS.ffffff` with `Z` or `+00:00`. -/
def isoAware (t : Text) : Option Bool :=
  if patterned 26 [(4, ch '-'), (7, ch '-'), (10, ch 'T'), (13, ch ':'), (16, ch ':'), (19, ch '.')]
      Text.isDigit (t.take 26) && t.drop 26 ∈ [txt "Z", txt "+00:00"] then some true else none

/-- `str.lower` on ASCII. -/
def lower (t : Text) : Text := t.map fun c =>
  if h : 65 ≤ c.val ∧ c.val ≤ 90 then ⟨c.val + 32, by omega⟩ else c

instance : Runtime Integral where
  sha256 := Sha256.hexdigest
  reprContainer v := if v.isDict then txt "\x7b...\x7d" else txt "[...]"
  uuidVersion := uuidVersion
  uuidText t := t
  isoAware := isoAware
  isDecimal := Text.isDigit
  lower := lower
  sha256_length := Sha256.hexdigest_length
  sha256_hex := Sha256.hexdigest_hex
  reprContainer_encodable v := by split_ifs <;> decide
  isDecimal_of_isDigit _ h := h
  uuidVersion_nil := rfl

/-- The digest of a text, as `decide` computes it. -/
theorem sha256_eq_direct (bs : List Byte) : Runtime.sha256 Integral bs = Sha256.Direct.hexdigest bs :=
  Sha256.hexdigest_eq_direct bs

end Integral

end Py

namespace Sqlite

open Py

/-- Text that is a JSON number literal. -/
def integralText (t : Text) : Option (Value.Num Integral) :=
  match Text.scanNumber t with
  | some (n, []) => if int64 n.toInt then some (.int n.toInt) else some (.float (.whole n.toInt))
  | _ => none

instance : SqliteFloat Integral where
  realText := Integral.repr
  realInteger
    | .whole n => if int64 n then some n else none
    | _ => none
  textNumber := integralText
  realInteger_eq x n h := by
    cases x with
    | whole m =>
      obtain ⟨-, rfl⟩ : int64 m = true ∧ m = n := by simpa using h
      exact decide_eq_true rfl
    | _ => cases h

end Sqlite
