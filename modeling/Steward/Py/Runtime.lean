import Steward.Py.Json

/-!
# The rest of the interpreter

`Runtime F` is what the code takes from the interpreter and its library beyond
the values: hashing, `repr` of containers, UUID and ISO-8601 parsing. `pyStr`
and `sum` are built on it.
-/

namespace Py

/-- `c in "0123456789abcdef"` -/
def isHexDigit (c : CodePoint) : Bool :=
  Text.isDigit c || (97 ≤ c.val && c.val ≤ 102)

class Runtime (F : Type) extends PyFloat F where
  /-- `hashlib.sha256(…).hexdigest()` -/
  sha256 : List Byte → Text
  /-- `repr` of a list or dictionary. -/
  reprContainer : Value F → Text
  /-- `uuid.UUID(text).version`; `none` is `ValueError`. -/
  uuidVersion : Text → Option (Option Nat)
  /-- `str(uuid.UUID(text))` -/
  uuidText : Text → Text
  /-- `datetime.fromisoformat(text).tzinfo is not None`; `none` is `ValueError`. -/
  isoAware : Text → Option Bool
  /-- `\d` in a pattern. -/
  isDecimal : CodePoint → Bool
  /-- `str.lower` -/
  lower : Text → Text
  sha256_length : ∀ bs, (sha256 bs).length = 64
  sha256_hex : ∀ bs, (sha256 bs).all isHexDigit = true
  reprContainer_encodable : ∀ v, (reprContainer v).encodable = true
  isDecimal_of_isDigit : ∀ c, Text.isDigit c = true → isDecimal c = true
  uuidVersion_nil : uuidVersion [] = none

variable {F : Type} [Runtime F]

namespace Text

theorem encodable_of_lt {s : Text} (h : ∀ c ∈ s, c.val < 0xD800) : s.encodable = true := by
  rw [encodable, List.all_eq_true]
  intro c hc
  have := h c hc
  simp only [isSurrogate, Bool.not_eq_true', Bool.and_eq_false_iff, decide_eq_false_iff_not]
  omega

theorem ofNat_encodable (n : Nat) : (ofNat n).encodable = true := by
  refine encodable_of_lt fun c hc => ?_
  have := ofNat_all n c hc
  simp only [isDigit, Bool.and_eq_true, decide_eq_true_eq] at this
  omega

theorem ofInt_encodable (n : Int) : (ofInt n).encodable = true := by
  cases n with
  | ofNat n => exact ofNat_encodable n
  | negSucc n => exact encodable_cons.2 ⟨by decide, ofNat_encodable _⟩

end Text

theorem sha256_encodable (bs : List Byte) : (Runtime.sha256 F bs).encodable = true := by
  refine Text.encodable_of_lt fun c hc => ?_
  have := List.all_eq_true.1 (Runtime.sha256_hex (F := F) bs) c hc
  simp only [isHexDigit, Text.isDigit, Bool.or_eq_true, Bool.and_eq_true, decide_eq_true_eq] at this
  omega

namespace Value

/-- `str(v)` -/
def pyStr : Value F → Text
  | .none => txt "None"
  | .bool b => if b then txt "True" else txt "False"
  | .int n => Text.ofInt n
  | .float x => PyFloat.repr x
  | .str s => s
  | v => Runtime.reprContainer v

@[simp] theorem pyStr_str (s : Text) : pyStr (F := F) (.str s) = s := rfl

/-- Only a string prints as text that may hold surrogates. -/
theorem pyStr_encodable {v : Value F} (h : v.isStr = false) : v.pyStr.encodable = true := by
  cases v with
  | none => exact (by decide : (txt "None").encodable = true)
  | bool b =>
    cases b
    · exact (by decide : (txt "False").encodable = true)
    · exact (by decide : (txt "True").encodable = true)
  | int n => exact Text.ofInt_encodable n
  | float x => exact PyFloat.repr_encodable x
  | str s => cases h
  | list xs => exact Runtime.reprContainer_encodable _
  | dict fs => exact Runtime.reprContainer_encodable _

/-! ## Sums -/

/-- `acc + v` for a running total. -/
def Num.add (acc : Num F) (v : Value F) : Except Error (Num F) :=
  match acc, v.num? with
  | _, .none => .error .typeError
  | .int m, some (.int n) => .ok (.int (m + n))
  | .int m, some (.float y) => match PyFloat.ofInt (F := F) m with
    | some x => .ok (.float (PyFloat.add x y))
    | .none => .error .overflowError
  | .float x, some (.int n) => match PyFloat.ofInt (F := F) n with
    | some y => .ok (.float (PyFloat.add x y))
    | .none => .error .overflowError
  | .float x, some (.float y) => .ok (.float (PyFloat.add x y))

/-- `sum(vs)` -/
def sum (vs : List (Value F)) : Except Error (Num F) := vs.foldlM Num.add (.int 0)

def Num.toValue : Num F → Value F
  | .int n => .int n
  | .float x => .float x

end Value

end Py
