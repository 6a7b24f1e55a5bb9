import Steward.Py.Assoc
import Steward.Py.Float
import Steward.Py.Error

/-!
# Dynamic values

`Value F` is what `json.loads` returns: the JSON types with Python's own
operations on them. Operations that raise return `Except Error`. Objects are
association lists in insertion order.
-/

namespace Py

inductive Value (F : Type) where
  | none
  | bool (b : Bool)
  | int (n : Int)
  | float (x : F)
  | str (s : Text)
  | list (xs : List (Value F))
  | dict (fs : List (Text × Value F))

namespace Value

variable {F : Type}

/-- Induction over a value, its elements and its members. -/
theorem induct {P : Value F → Prop} (none : P .none) (bool : ∀ b, P (.bool b))
    (int : ∀ n, P (.int n)) (float : ∀ x, P (.float x)) (str : ∀ s, P (.str s))
    (list : ∀ xs, (∀ x ∈ xs, P x) → P (.list xs))
    (dict : ∀ fs, (∀ f ∈ fs, P (Prod.snd f)) → P (.dict fs)) (v : Value F) : P v :=
  @Value.rec F P (fun xs => ∀ x ∈ xs, P x) (fun fs => ∀ f ∈ fs, P f.2) (fun f => P f.2)
    none bool int float str list dict (by simp)
    (fun x xs h1 h2 => by simpa using ⟨h1, h2⟩) (by simp)
    (fun f fs h1 h2 g hg => by
      rcases List.mem_cons.1 hg with rfl | h
      exacts [h1, h2 g h])
    (fun _ _ h => h) v

/-! ## Type tests -/

def isStr : Value F → Bool | .str _ => true | _ => false
def isBool : Value F → Bool | .bool _ => true | _ => false
def isNone : Value F → Bool | .none => true | _ => false
def isList : Value F → Bool | .list _ => true | _ => false
def isDict : Value F → Bool | .dict _ => true | _ => false

/-- `isinstance(v, int) and not isinstance(v, bool)` -/
def isInt : Value F → Bool | .int _ => true | _ => false

def hashable : Value F → Bool | .list _ | .dict _ => false | _ => true

/-! ## Access -/

/-- `d.get(k)` on a dictionary. -/
def get (fs : List (Text × Value F)) (k : Text) : Value F := (lookup fs k).getD .none

/-- `v.get(k)`: only dictionaries have the attribute. -/
def callGet (v : Value F) (k : Text) : Except Error (Value F) :=
  match v with
  | .dict fs => .ok (get fs k)
  | _ => .error .attributeError

/-- `v[k]` for a string `k`. -/
def item (v : Value F) (k : Text) : Except Error (Value F) :=
  match v with
  | .dict fs => match lookup fs k with
    | some w => .ok w
    | .none => .error .keyError
  | _ => .error .typeError

/-- `v.get(k) if isinstance(v, dict) else None` -/
def getIf (v : Value F) (k : Text) : Value F :=
  match v with
  | .dict fs => get fs k
  | _ => .none

/-- `len(v)` -/
def len : Value F → Except Error Nat
  | .str s => .ok s.length
  | .list xs => .ok xs.length
  | .dict fs => .ok fs.length
  | _ => .error .typeError

/-- The items of `for x in v`; a string iterates over its characters. -/
def iter : Value F → Except Error (List (Value F))
  | .str s => .ok (s.map fun c => .str [c])
  | .list xs => .ok xs
  | .dict fs => .ok ((keys fs).map .str)
  | _ => .error .typeError

theorem get_of_lookup {fs : List (Text × Value F)} {k : Text} {v : Value F}
    (h : lookup fs k = some v) : get fs k = v := by simp [get, h]

theorem item_dict_of_hasKeys {ks : List Text} {fs : List (Text × Value F)}
    (h : hasKeys ks fs = true) {k : Text} (hk : k ∈ ks) :
    item (.dict fs) k = .ok (get fs k) := by
  obtain ⟨v, hv⟩ := lookup_of_hasKeys h hk
  simp [item, get, hv]

/-- `v in {…}` for a set, or the keys of a map, of strings. -/
def memStrs (v : Value F) (ks : List Text) : Except Error Bool :=
  match v with
  | .str s => .ok (s ∈ ks)
  | .list _ | .dict _ => .error .typeError
  | _ => .ok false

theorem ok_memStrs {v : Value F} {ks : List Text} : Ok (v.memStrs ks) ↔ v.hashable = true := by
  cases v <;> simp [memStrs, hashable]

variable [PyFloat F]

/-- `bool(v)` -/
def truthy : Value F → Bool
  | .none => false
  | .bool b => b
  | .int n => n ≠ 0
  | .float x => !PyFloat.isZero x
  | .str s => !s.isEmpty
  | .list xs => !xs.isEmpty
  | .dict fs => !fs.isEmpty

/-! ## Equality -/

/-- A value of the numeric tower. -/
inductive Num (F : Type) where
  | int (n : Int)
  | float (x : F)

def num? : Value F → Option (Num F)
  | .bool b => some (.int (if b then 1 else 0))
  | .int n => some (.int n)
  | .float x => some (.float x)
  | _ => .none

/-- `==` on numbers; `same` also identifies the parser's one NaN with itself. -/
def Num.same : Num F → Num F → Bool
  | .int m, .int n => m = n
  | .float x, .int n | .int n, .float x => PyFloat.eqInt x n
  | .float x, .float y => PyFloat.eq x y || (PyFloat.isNan x && PyFloat.isNan y)

def atomSame : Value F → Value F → Bool
  | .none, .none => true
  | .str s, .str t => s = t
  | a, b => match a.num?, b.num? with
    | some x, some y => x.same y
    | _, _ => false

mutual
/-- How containers compare their elements: `is` or `==`. -/
def same : Value F → Value F → Bool
  | .list xs, .list ys => sameList xs ys
  | .dict fs, .dict gs => fs.length = gs.length && sameDict fs gs
  | a, b => atomSame a b
def sameList : List (Value F) → List (Value F) → Bool
  | [], [] => true
  | x :: xs, y :: ys => same x y && sameList xs ys
  | _, _ => false
def sameDict : List (Text × Value F) → List (Text × Value F) → Bool
  | [], _ => true
  | (k, v) :: fs, gs => (match lookup gs k with
    | some w => same v w
    | .none => false) && sameDict fs gs
end

attribute [local simp] same sameList sameDict

/-- `a == b` -/
def eq (a b : Value F) : Bool :=
  match a, b with
  | .float x, .float y => PyFloat.eq x y
  | a, b => same a b

@[simp] theorem same_str {v : Value F} {t : Text} : v.same (.str t) = true ↔ v = .str t := by
  cases v <;> simp [same, atomSame, num?]

@[simp] theorem eq_str {v : Value F} {t : Text} : v.eq (.str t) = true ↔ v = .str t := by
  cases v <;> simp [eq, same, atomSame, num?]

@[simp] theorem eq_none {v : Value F} : v.eq .none = true ↔ v = .none := by
  cases v <;> simp [eq, same, atomSame, num?]

/-- `x in c` -/
def contains (c x : Value F) : Except Error Bool :=
  match c, x with
  | .list ys, x => .ok (ys.any (same · x))
  | .dict fs, x => x.memStrs (keys fs)
  | .str s, .str t => .ok (Text.hasInfix t s)
  | _, _ => .error .typeError

end Value

end Py
