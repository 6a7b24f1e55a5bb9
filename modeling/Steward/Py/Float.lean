import Mathlib.Tactic.Ring
import Mathlib.Data.List.TakeWhile
import Steward.Py.Text

/-!
# Numbers

The scanner for JSON number literals, the value of a decimal numeral, and the
interface to `float`. A float type is any type with the operations below; the
laws are the ones of IEEE doubles that proofs use.
-/

namespace Py

namespace Text

def isDigit (c : CodePoint) : Bool := 48 ≤ c.val && c.val ≤ 57

/-- The value of a digit string. -/
def toNat (s : Text) : Nat := s.foldl (fun n c => 10 * n + (c.val - 48)) 0

/-- `0 | [1-9][0-9]*` -/
def scanNat : Text → Option (Text × Text)
  | [] => none
  | c :: s =>
    if c = ch '0' then some ([c], s)
    else if isDigit c then some (c :: s.takeWhile isDigit, s.dropWhile isDigit)
    else none

/-- `(\.[0-9]+)?` -/
def scanFrac : Text → Text × Text
  | [] => ([], [])
  | c :: s =>
    if c = ch '.' ∧ s.takeWhile isDigit ≠ [] then (c :: s.takeWhile isDigit, s.dropWhile isDigit)
    else ([], c :: s)

/-- `[-+]?` -/
def scanSign : Text → Text × Text
  | [] => ([], [])
  | c :: s => if c = ch '-' ∨ c = ch '+' then ([c], s) else ([], c :: s)

/-- `([eE][-+]?[0-9]+)?` -/
def scanExp : Text → Text × Text
  | [] => ([], [])
  | c :: s =>
    if (c = ch 'e' ∨ c = ch 'E') ∧ (scanSign s).2.takeWhile isDigit ≠ [] then
      (c :: ((scanSign s).1 ++ (scanSign s).2.takeWhile isDigit), (scanSign s).2.dropWhile isDigit)
    else ([], c :: s)

/-- A scanned JSON number. -/
structure Number where
  negative : Bool
  int : Text
  frac : Text
  exp : Text
  deriving DecidableEq

def Number.isFloat (n : Number) : Bool := !(n.frac.isEmpty && n.exp.isEmpty)

def Number.text (n : Number) : Text :=
  (if n.negative then [ch '-'] else []) ++ n.int ++ n.frac ++ n.exp

def Number.toInt (n : Number) : Int := if n.negative then -(toNat n.int : Int) else toNat n.int

def scanUnsigned (neg : Bool) (s : Text) : Option (Number × Text) :=
  (scanNat s).map fun i =>
    (⟨neg, i.1, (scanFrac i.2).1, (scanExp (scanFrac i.2).2).1⟩, (scanExp (scanFrac i.2).2).2)

/-- `NUMBER_RE` of the JSON scanner: the number at the head, and what follows. -/
def scanNumber : Text → Option (Number × Text)
  | [] => none
  | c :: s => if c = ch '-' then scanUnsigned true s else scanUnsigned false (c :: s)

/-! ## A literal ends where no numeric character follows -/

/-- `u` does not continue a number. -/
def Stop (u : Text) : Prop :=
  ∀ c ∈ u.head?, isDigit c = false ∧ c ≠ ch '.' ∧ c ≠ ch 'e' ∧ c ≠ ch 'E' ∧ c ≠ ch '-' ∧ c ≠ ch '+'

theorem Stop.nil : Stop [] := by simp [Stop]

theorem takeWhile_append_of_stop {u : Text} (hu : Stop u) (s : Text) :
    (s ++ u).takeWhile isDigit = s.takeWhile isDigit := by
  induction s with
  | nil =>
    cases u with
    | nil => rfl
    | cons c u => simp [(hu c rfl).1]
  | cons c s ih => by_cases h : isDigit c <;> simp [h, ih]

theorem dropWhile_append_of_stop {u : Text} (hu : Stop u) (s : Text) :
    (s ++ u).dropWhile isDigit = s.dropWhile isDigit ++ u := by
  induction s with
  | nil =>
    cases u with
    | nil => rfl
    | cons c u => simp [(hu c rfl).1]
  | cons c s ih => by_cases h : isDigit c <;> simp [h, ih]

theorem scanNat_append {u : Text} (hu : Stop u) {s l r : Text} (h : scanNat s = some (l, r)) :
    scanNat (s ++ u) = some (l, r ++ u) := by
  cases s with
  | nil => cases h
  | cons c s =>
    simp only [List.cons_append, scanNat] at h ⊢
    rw [takeWhile_append_of_stop hu, dropWhile_append_of_stop hu]
    split_ifs at h ⊢ <;> cases h <;> rfl

theorem scanFrac_append {u : Text} (hu : Stop u) (s : Text) :
    scanFrac (s ++ u) = ((scanFrac s).1, (scanFrac s).2 ++ u) := by
  cases s with
  | nil =>
    cases u with
    | nil => rfl
    | cons c u => simp [scanFrac, (hu c rfl).2.1]
  | cons c s =>
    simp only [List.cons_append, scanFrac]
    rw [takeWhile_append_of_stop hu, dropWhile_append_of_stop hu]
    split_ifs <;> rfl

theorem scanSign_append {u : Text} (hu : Stop u) (s : Text) :
    scanSign (s ++ u) = ((scanSign s).1, (scanSign s).2 ++ u) := by
  cases s with
  | nil =>
    cases u with
    | nil => rfl
    | cons c u => simp [scanSign, (hu c rfl).2.2.2.2.1, (hu c rfl).2.2.2.2.2]
  | cons c s => simp only [List.cons_append, scanSign]; split_ifs <;> rfl

theorem scanExp_append {u : Text} (hu : Stop u) (s : Text) :
    scanExp (s ++ u) = ((scanExp s).1, (scanExp s).2 ++ u) := by
  cases s with
  | nil =>
    cases u with
    | nil => rfl
    | cons c u => simp [scanExp, (hu c rfl).2.2.1, (hu c rfl).2.2.2.1]
  | cons c s =>
    simp only [List.cons_append, scanExp]
    rw [scanSign_append hu, takeWhile_append_of_stop hu, dropWhile_append_of_stop hu]
    split_ifs <;> rfl

theorem scanUnsigned_append {u : Text} (hu : Stop u) {b : Bool} {s r : Text} {n : Number}
    (h : scanUnsigned b s = some (n, r)) : scanUnsigned b (s ++ u) = some (n, r ++ u) := by
  simp only [scanUnsigned, Option.map_eq_some_iff, Prod.mk.injEq] at h ⊢
  obtain ⟨⟨l, t⟩, hl, rfl, rfl⟩ := h
  refine ⟨_, scanNat_append hu hl, ?_⟩
  simp [scanFrac_append hu, scanExp_append hu]

/-- A complete literal is scanned the same before any text that does not continue it. -/
theorem scanNumber_append {u : Text} (hu : Stop u) {s r : Text} {n : Number}
    (h : scanNumber s = some (n, r)) : scanNumber (s ++ u) = some (n, r ++ u) := by
  cases s with
  | nil => cases h
  | cons c s =>
    simp only [List.cons_append, scanNumber] at h ⊢
    split_ifs at h ⊢
    · exact scanUnsigned_append hu h
    · exact scanUnsigned_append hu h

/-! ## Decimal numerals -/

theorem isDigit_digit (n : Nat) : isDigit (digit n) = true := by
  have := Nat.mod_lt n (by decide : 10 > 0)
  rw [isDigit, Bool.and_eq_true]
  exact ⟨decide_eq_true (by simp only [digit]; omega), decide_eq_true (by simp only [digit]; omega)⟩

theorem toNat_append (s t : Text) :
    toNat (s ++ t) = toNat s * 10 ^ t.length + toNat t := by
  have key : ∀ (t : Text) (a : Nat), t.foldl (fun n c => 10 * n + (c.val - 48)) a =
      a * 10 ^ t.length + t.foldl (fun n c => 10 * n + (c.val - 48)) 0 := by
    intro t
    induction t with
    | nil => simp
    | cons c t ih =>
      intro a
      rw [List.foldl_cons, ih, List.foldl_cons, ih (10 * 0 + _), List.length_cons, Nat.pow_succ]
      ring
  rw [toNat, List.foldl_append, key]
  rfl

theorem toNat_cons (c : CodePoint) (t : Text) :
    toNat (c :: t) = (c.val - 48) * 10 ^ t.length + toNat t := by
  rw [← List.singleton_append, toNat_append]; simp [toNat]

@[simp] theorem digit_val_sub (n : Nat) : (digit n).val - 48 = n % 10 := by simp [digit]

theorem toNat_digits {fuel n : Nat} (h : n < fuel) (acc : Text) :
    toNat (digits fuel n acc) = n * 10 ^ acc.length + toNat acc := by
  induction fuel generalizing n acc with
  | zero => omega
  | succ fuel ih =>
    unfold digits
    split_ifs with hn
    · rw [toNat_cons, digit_val_sub, Nat.mod_eq_of_lt hn]
    · rw [ih (by omega), toNat_cons, digit_val_sub, List.length_cons, Nat.pow_succ]
      have := Nat.div_add_mod n 10
      calc n / 10 * (10 ^ acc.length * 10) + (n % 10 % 10 * 10 ^ acc.length + toNat acc)
          = (10 * (n / 10) + n % 10 % 10) * 10 ^ acc.length + toNat acc := by ring
        _ = n * 10 ^ acc.length + toNat acc := by rw [Nat.mod_mod, this]

theorem toNat_ofNat (n : Nat) : toNat (ofNat n) = n := by
  rw [ofNat, toNat_digits (Nat.lt_succ_self n)]; simp [toNat]

theorem digits_all {fuel n : Nat} {acc : Text} (h : ∀ c ∈ acc, isDigit c = true) :
    ∀ c ∈ digits fuel n acc, isDigit c = true := by
  induction fuel generalizing n acc with
  | zero => exact h
  | succ fuel ih =>
    have hd (m : Nat) : ∀ c ∈ digit m :: acc, isDigit c = true := by
      intro c hc
      rcases List.mem_cons.1 hc with rfl | hc
      · exact isDigit_digit m
      · exact h c hc
    unfold digits
    split_ifs
    · exact hd n
    · exact ih (hd _)

/-- The first digit of a positive numeral is not `0`. -/
theorem digits_head {fuel n : Nat} (h : n < fuel) (hn : 0 < n) (acc : Text) :
    ∃ m, 0 < m ∧ m < 10 ∧ ∃ s, digits fuel n acc = digit m :: s := by
  induction fuel generalizing n acc with
  | zero => omega
  | succ fuel ih =>
    unfold digits
    split_ifs with h10
    · exact ⟨n, hn, h10, acc, rfl⟩
    · exact ih (by omega) (by omega) _

theorem digit_ne_zero {m : Nat} (h0 : 0 < m) (h : m < 10) : digit m ≠ ch '0' := by
  intro he
  have := congrArg Fin.val he
  simp [digit, ch, Nat.mod_eq_of_lt h] at this
  omega

theorem takeWhile_all {s : Text} (h : ∀ c ∈ s, isDigit c = true) : s.takeWhile isDigit = s :=
  List.takeWhile_eq_self_iff.2 h

theorem dropWhile_all {s : Text} (h : ∀ c ∈ s, isDigit c = true) : s.dropWhile isDigit = [] :=
  List.dropWhile_eq_nil_iff.2 h

theorem scanNat_ofNat (n : Nat) : scanNat (ofNat n) = some (ofNat n, []) := by
  rcases Nat.eq_zero_or_pos n with rfl | hn
  · rfl
  · obtain ⟨m, h0, h10, s, hs⟩ := digits_head (Nat.lt_succ_self n) hn []
    have hall : ∀ c ∈ digit m :: s, isDigit c = true := hs ▸ digits_all (by simp)
    have hs' : ∀ c ∈ s, isDigit c = true := fun c hc => hall c (List.mem_cons_of_mem _ hc)
    rw [ofNat, Nat.succ_eq_add_one] at *
    rw [hs, scanNat, if_neg (digit_ne_zero h0 h10), if_pos (isDigit_digit m), takeWhile_all hs',
      dropWhile_all hs']

theorem ofNat_all (n : Nat) : ∀ c ∈ ofNat n, isDigit c = true := digits_all (by simp)

theorem toNat_replicate_zero (k : Nat) (t : Text) : toNat (List.replicate k (digit 0) ++ t) = toNat t := by
  induction k with
  | zero => rfl
  | succ k ih => rw [List.replicate_succ, List.cons_append]; exact ih

theorem toNat_pad8 (n : Nat) : toNat (pad8 n) = n := by
  rw [pad8, toNat_replicate_zero, toNat_ofNat]

theorem pad8_all (n : Nat) : ∀ c ∈ pad8 n, isDigit c = true := by
  intro c hc
  rcases List.mem_append.1 hc with hc | hc
  · rw [List.eq_of_mem_replicate hc]; rfl
  · exact ofNat_all n c hc

theorem ofNat_ne_nil (n : Nat) : ofNat n ≠ [] := by
  intro h
  have := scanNat_ofNat n
  rw [h] at this
  cases this

private theorem scanUnsigned_ofNat (b : Bool) (n : Nat) :
    scanUnsigned b (ofNat n) = some (⟨b, ofNat n, [], []⟩, []) := by
  rw [scanUnsigned, scanNat_ofNat]; rfl

theorem scanNumber_ofInt (n : Int) : ∃ l : Number,
    scanNumber (ofInt n) = some (l, []) ∧ l.isFloat = false ∧ l.toInt = n := by
  cases n with
  | ofNat n =>
    refine ⟨⟨false, ofNat n, [], []⟩, ?_, rfl, by simp [Number.toInt, toNat_ofNat]⟩
    obtain ⟨c, s, hc⟩ := List.exists_cons_of_ne_nil (ofNat_ne_nil n)
    have hd : isDigit c = true := ofNat_all n c (by rw [hc]; simp)
    have hm : c ≠ ch '-' := by rintro rfl; exact absurd hd (by decide)
    have := scanUnsigned_ofNat false n
    rw [ofInt]
    rw [hc] at this ⊢
    rw [scanNumber, if_neg hm, this]
  | negSucc n =>
    refine ⟨⟨true, ofNat (n + 1), [], []⟩, ?_, rfl, ?_⟩
    · rw [ofInt, scanNumber, if_pos rfl, scanUnsigned_ofNat]
    · rw [Number.toInt, if_pos rfl, toNat_ofNat, Int.negSucc_eq, Int.natCast_succ]

end Text

/-! ## Floats -/

/-- A type of binary floats. `ofInt` is `float(n)` (`none` is `OverflowError`),
`eq` and `eqInt` are `==` against a float and an `int`, `le`, `leInt` and `intLe` are
`<=`, `ofLiteral` is `float(text)`. -/
class PyFloat (F : Type) where
  isNan : F → Bool
  isFinite : F → Bool
  isPositive : F → Bool
  isZero : F → Bool
  eq : F → F → Bool
  eqInt : F → Int → Bool
  le : F → F → Bool
  leInt : F → Int → Bool
  intLe : Int → F → Bool
  ofInt : Int → Option F
  add : F → F → F
  repr : F → Text
  ofLiteral : Text → F
  nan : F
  posInf : F
  negInf : F
  eq_self : ∀ x, isNan x = false → eq x x = true
  eqInt_unique : ∀ x m n, eqInt x m = true → eqInt x n = true → m = n
  eqInt_of_eq : ∀ x y n, eq x y = true → eqInt x n = true → eqInt y n = true
  not_nan_of_finite : ∀ x, isFinite x = true → isNan x = false
  repr_encodable : ∀ x, Text.encodable (repr x) = true
  repr_scan : ∀ x, isFinite x = true → ∃ n : Text.Number,
    Text.scanNumber (repr x) = some (n, []) ∧ n.isFloat = true ∧ n.text = repr x
  ofLiteral_repr : ∀ x, isFinite x = true → ofLiteral (repr x) = x

end Py
