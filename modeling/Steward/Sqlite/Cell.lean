import Steward.Py.Runtime

/-!
# SQLite values

What the driver binds, how a column's affinity changes it, and what reading it
back returns. `Kept a v` are the values that survive a column of affinity `a`
up to Python's `==`.
-/

namespace Sqlite

open Py

inductive Cell (F : Type) where
  | null
  | integer (n : Int)
  | real (x : F)
  | text (s : Text)

/-- What the driver raises; the first two are not `sqlite3.Error`. -/
inductive Error where
  | overflow
  | unicodeEncode
  | programming
  | integrity
  | operational
  deriving DecidableEq, Repr

inductive Affinity where
  | text
  | integer
  deriving DecidableEq, Repr

/-- SQLite's conversions between floats, integers and text. -/
class SqliteFloat (F : Type) extends Runtime F where
  /-- A real in a `TEXT` column. -/
  realText : F → Text
  /-- The 64-bit integer a real in an `INTEGER` column becomes. -/
  realInteger : F → Option Int
  /-- Text that an `INTEGER` column converts: well-formed integer or real literals. -/
  textNumber : Text → Option (Value.Num F)
  realInteger_eq : ∀ x n, realInteger x = some n → PyFloat.eqInt x n = true

variable {F : Type}

def Cell.isNull : Cell F → Bool | .null => true | _ => false

/-- A cell as the driver returns it. -/
def Cell.toValue : Cell F → Value F
  | .null => .none
  | .integer n => .int n
  | .real x => .float x
  | .text s => .str s

def int64 (n : Int) : Bool := -2 ^ 63 ≤ n && n < 2 ^ 63

variable [SqliteFloat F]

/-- Binding a parameter. SQLite has no NaN. -/
def bind : Value F → Except Error (Cell F)
  | .none => .ok .null
  | .bool b => .ok (.integer (if b then 1 else 0))
  | .int n => if int64 n then .ok (.integer n) else .error .overflow
  | .float x => .ok (if PyFloat.isNan x then .null else .real x)
  | .str s => if s.encodable then .ok (.text s) else .error .unicodeEncode
  | .list _ | .dict _ => .error .programming

def Affinity.apply : Affinity → Cell F → Cell F
  | .text, .integer n => .text (Text.ofInt n)
  | .text, .real x => .text (SqliteFloat.realText x)
  | .integer, .real x => match SqliteFloat.realInteger x with
    | some n => .integer n
    | none => .real x
  | .integer, .text s => match SqliteFloat.textNumber (F := F) s with
    | some (.int n) => .integer n
    | some (.float x) => .real x
    | none => .text s
  | _, c => c

/-- The cell a column of affinity `a` holds after binding `v`. -/
def stored (a : Affinity) (v : Value F) : Except Error (Cell F) := a.apply <$> bind v

/-- `v` can be bound. -/
def Bindable : Value F → Bool
  | .int n => int64 n
  | .str s => s.encodable
  | .list _ | .dict _ => false
  | _ => true

theorem ok_bind_iff (v : Value F) : Ok (bind v) ↔ Bindable v = true := by
  cases v <;> simp [bind, Bindable, ok_ite]

theorem stored_str {s : Text} (h : s.encodable = true) :
    stored (F := F) .text (.str s) = .ok (.text s) := by simp [stored, bind, h]; rfl

theorem stored_int {n : Int} (h : int64 n = true) :
    stored (F := F) .integer (.int n) = .ok (.integer n) := by simp [stored, bind, h]; rfl

@[simp] theorem stored_none (a : Affinity) : stored (F := F) a .none = .ok .null := by
  cases a <;> rfl

theorem Affinity.isNull_apply (a : Affinity) (c : Cell F) : (a.apply c).isNull = c.isNull := by
  cases a with
  | text => cases c <;> rfl
  | integer =>
    cases c with
    | real x => cases h : SqliteFloat.realInteger x <;> simp [Affinity.apply, h, Cell.isNull]
    | text s =>
      cases h : SqliteFloat.textNumber (F := F) s with
      | none => simp [Affinity.apply, h, Cell.isNull]
      | some m => cases m <;> simp [Affinity.apply, h, Cell.isNull]
    | _ => rfl

/-- Only `None` and NaN are bound as `NULL`. -/
theorem isNull_of_bind {v : Value F} {b : Cell F} (h : bind v = .ok b)
    (hnan : ∀ x, v = .float x → PyFloat.isNan x = false) : b.isNull = true ↔ v = .none := by
  cases v with
  | none => cases h; exact iff_of_true rfl rfl
  | bool c => cases h; exact iff_of_false Bool.false_ne_true (by rintro ⟨⟩)
  | int n =>
    rw [bind] at h
    split_ifs at h
    cases h
    exact iff_of_false Bool.false_ne_true (by rintro ⟨⟩)
  | float x =>
    rw [bind, hnan x rfl] at h
    cases h
    exact iff_of_false Bool.false_ne_true (by rintro ⟨⟩)
  | str s =>
    rw [bind] at h
    split_ifs at h
    cases h
    exact iff_of_false Bool.false_ne_true (by rintro ⟨⟩)
  | list xs => cases h
  | dict fs => cases h

end Sqlite
