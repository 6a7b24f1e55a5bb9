import Steward.Sqlite.Cell

/-!
# Tables

A schema lists its columns with affinity, `NOT NULL` and the unique keys; a row
is a cell for each column. `insert`, `insertMany` and `update` raise what the
driver raises; `insert_eq_ok` and `insertMany_eq_ok` say exactly when they
succeed and what they leave.
-/

namespace Sqlite

open Py

structure Schema (C : Type) where
  columns : List C
  affinity : C → Affinity
  notNull : C → Bool
  unique : List (List C)
  complete : ∀ c, c ∈ columns

abbrev Row (C F : Type) := C → Cell F

variable {C F : Type} [SqliteFloat F]

/-- `=` on two cells of one column; `NULL` equals nothing. -/
def Cell.agrees : Cell F → Cell F → Bool
  | .integer m, .integer n => m = n
  | .real x, .real y => PyFloat.eq x y
  | .integer n, .real x | .real x, .integer n => PyFloat.eqInt x n
  | .text s, .text t => s = t
  | _, _ => false

/-- The cell holds the number `n`. -/
def Cell.HoldsInt (x : Cell F) (n : Int) : Prop :=
  x = .integer n ∨ ∃ y, x = .real y ∧ PyFloat.eqInt y n = true

/-- Cells that agree hold one number. -/
theorem Cell.HoldsInt.unique {x y : Cell F} {m n : Int} (hx : x.HoldsInt m) (hy : y.HoldsInt n)
    (h : x.agrees y = true) : m = n := by
  rcases hx with rfl | ⟨a, rfl, ha⟩ <;> rcases hy with rfl | ⟨b, rfl, hb⟩
  · exact of_decide_eq_true h
  · exact PyFloat.eqInt_unique b m n h hb
  · exact PyFloat.eqInt_unique a m n ha h
  · exact PyFloat.eqInt_unique b m n (PyFloat.eqInt_of_eq a b m h ha) hb

/-- An `INTEGER` column keeps what a bound number equals. -/
theorem Cell.HoldsInt.apply {x : Cell F} {n : Int} (h : x.HoldsInt n) :
    (Affinity.integer.apply x).HoldsInt n := by
  rcases h with rfl | ⟨y, rfl, hy⟩
  · exact .inl rfl
  · cases hr : SqliteFloat.realInteger y with
    | none => exact .inr ⟨y, by simp [Affinity.apply, hr], hy⟩
    | some m =>
      refine .inl ?_
      rw [PyFloat.eqInt_unique y n m hy (SqliteFloat.realInteger_eq y m hr)]
      simp [Affinity.apply, hr]

/-- Binding a value that equals `n`. -/
theorem bind_of_eq_int {v : Value F} {n : Int} (h : v.eq (.int n) = true) (hn : int64 n = true)
    (hnan : ∀ x, v = .float x → PyFloat.isNan x = false) : ∃ x, bind v = .ok x ∧ x.HoldsInt n := by
  cases v with
  | int m =>
    obtain rfl : m = n := of_decide_eq_true h
    exact ⟨.integer m, if_pos hn, .inl rfl⟩
  | bool b =>
    have hb : (if b then 1 else 0) = n := of_decide_eq_true h
    exact ⟨_, rfl, .inl (by rw [hb])⟩
  | float x => exact ⟨.real x, by rw [bind, hnan x rfl]; rfl, .inr ⟨x, rfl, h⟩⟩
  | _ => exact absurd h Bool.false_ne_true

namespace Schema

variable (sch : Schema C)

/-- Two rows that a unique key forbids together. -/
def clash (r q : Row C F) : Bool := sch.unique.any fun cs => cs.all fun c => (r c).agrees (q c)

/-- The cell of a bindable value. -/
def cell (c : C) (v : Value F) : Cell F :=
  match stored (sch.affinity c) v with
  | .ok x => x
  | .error _ => .null

/-- `VALUES (…)` bound and checked against `NOT NULL`. -/
def write (vals : C → Value F) : Except Error (Row C F) := do
  let _ ← sch.columns.mapM fun c => bind (vals c)
  if sch.columns.any fun c => sch.notNull c && (sch.cell c (vals c)).isNull then throw .integrity
  pure fun c => sch.cell c (vals c)

/-- `INSERT INTO … VALUES (…)` -/
def insert (t : List (Row C F)) (vals : C → Value F) : Except Error (List (Row C F)) := do
  let r ← sch.write vals
  if t.any (sch.clash r) then throw .integrity
  pure (t ++ [r])

/-- `executemany` of an `INSERT`. -/
def insertMany (t : List (Row C F)) : List (C → Value F) → Except Error (List (Row C F))
  | [] => pure t
  | v :: vs => do insertMany (← sch.insert t v) vs

/-- `c = ?` for a bound parameter. -/
def is (c : C) (x : Cell F) (r : Row C F) : Bool := (r c).agrees ((sch.affinity c).apply x)

/-- `SELECT * … WHERE c = ?` -/
def select (t : List (Row C F)) (c : C) (v : Value F) : Except Error (List (Row C F)) := do
  let x ← bind v
  pure (t.filter (sch.is c x))

/-- `UPDATE … SET … WHERE c = ?`; `sets` gives the assigned columns. -/
def update (t : List (Row C F)) (sets : C → Option (Value F)) (c : C) (v : Value F) :
    Except Error (List (Row C F)) := do
  let _ ← sch.columns.mapM fun c => bind ((sets c).getD .none)
  let x ← bind v
  let after (r : Row C F) : Row C F := fun c => match sets c with
    | some v => sch.cell c v
    | none => r c
  if (t.filter (sch.is c x)).any fun r =>
      sch.columns.any fun c => sch.notNull c && (after r c).isNull then throw .integrity
  pure (t.map fun r => if sch.is c x r then after r else r)

/-! ## When they succeed -/

theorem cell_of_stored {c : C} {v : Value F} {x : Cell F} (h : stored (sch.affinity c) v = .ok x) :
    sch.cell c v = x := by rw [cell, h]

theorem cell_str {c : C} (hc : sch.affinity c = .text) {t : Text} (ht : t.encodable = true) :
    sch.cell c (.str t : Value F) = .text t := by
  refine sch.cell_of_stored ?_
  rw [hc]
  exact stored_str ht

/-- A number in an `INTEGER` column. -/
theorem cell_of_eq_int {c : C} (hc : sch.affinity c = .integer) {v : Value F} {n : Int}
    (h : v.eq (.int n) = true) (hn : int64 n = true) (hnan : ∀ x, v = .float x → PyFloat.isNan x = false) :
    Bindable v = true ∧ (sch.cell c v).HoldsInt n := by
  obtain ⟨x, hx, hholds⟩ := bind_of_eq_int h hn hnan
  refine ⟨(ok_bind_iff v).1 ⟨x, hx⟩, ?_⟩
  rw [sch.cell_of_stored (x := Affinity.integer.apply x) (by rw [hc, stored, hx]; rfl)]
  exact hholds.apply

/-- Only `None` and NaN are stored as `NULL`. -/
theorem isNull_cell {c : C} {v : Value F} (hb : Bindable v = true)
    (hnan : ∀ x, v = .float x → PyFloat.isNan x = false) : (sch.cell c v).isNull = true ↔ v = .none := by
  obtain ⟨b, hv⟩ := (ok_bind_iff v).2 hb
  have hcell : sch.cell c v = (sch.affinity c).apply b := sch.cell_of_stored (by rw [stored, hv]; rfl)
  rw [hcell, Affinity.isNull_apply]
  exact isNull_of_bind hv hnan

theorem write_eq_ok {vals : C → Value F} {r : Row C F} : sch.write vals = .ok r ↔
    (∀ c, Bindable (vals c) = true) ∧ (∀ c, sch.notNull c = true → (r c).isNull = false) ∧
      r = fun c => sch.cell c (vals c) := by
  have hb : Ok (sch.columns.mapM fun c => bind (vals c)) ↔ ∀ c, Bindable (vals c) = true := by
    rw [ok_mapM]
    exact ⟨fun h c => (ok_bind_iff _).1 (h c (sch.complete c)), fun h c _ => (ok_bind_iff _).2 (h c)⟩
  have hn : (sch.columns.any fun c => sch.notNull c && (sch.cell c (vals c)).isNull) = false ↔
      ∀ c, sch.notNull c = true → (sch.cell c (vals c)).isNull = false := by
    rw [List.any_eq_false]
    constructor
    · intro h c hc
      simpa [hc] using h c (sch.complete c)
    · intro h c _ hc
      rw [Bool.and_eq_true] at hc
      rw [h c hc.1] at hc
      cases hc.2
  rw [write, bind_eq_ok]
  constructor
  · rintro ⟨_, hm, h⟩
    split_ifs at h with hnull
    · cases h
    · cases h
      exact ⟨hb.1 ⟨_, hm⟩, hn.1 (by simpa using hnull), rfl⟩
  · rintro ⟨h1, h2, rfl⟩
    obtain ⟨xs, hxs⟩ := hb.2 h1
    refine ⟨xs, hxs, ?_⟩
    rw [if_neg (by rw [hn.2 h2]; exact Bool.false_ne_true)]
    rfl

theorem insert_eq_ok {t t' : List (Row C F)} {vals : C → Value F} : sch.insert t vals = .ok t' ↔
    ∃ r, sch.write vals = .ok r ∧ (∀ q ∈ t, sch.clash r q = false) ∧ t' = t ++ [r] := by
  rw [insert, bind_eq_ok]
  refine exists_congr fun r => and_congr_right' ?_
  split_ifs with h
  · refine iff_of_false (fun h' => by cases h') ?_
    rintro ⟨hc, -⟩
    rw [List.any_eq_true] at h
    obtain ⟨q, hq, hqc⟩ := h
    rw [hc q hq] at hqc
    cases hqc
  · have hc : ∀ q ∈ t, sch.clash r q = false := by simpa using h
    exact ⟨fun h' => ⟨hc, by cases h'; rfl⟩, fun h' => by rw [h'.2]; rfl⟩

theorem insertMany_eq_ok {t t' : List (Row C F)} {vs : List (C → Value F)} :
    sch.insertMany t vs = .ok t' ↔
      ∃ rs, List.Forall₂ (fun v r => sch.write v = .ok r) vs rs ∧
        (∀ q ∈ t, ∀ r ∈ rs, sch.clash r q = false) ∧
        rs.Pairwise (fun q r => sch.clash r q = false) ∧ t' = t ++ rs := by
  induction vs generalizing t with
  | nil =>
    simp only [insertMany, List.forall₂_nil_left_iff, exists_eq_left]
    exact ⟨fun h => by cases h; simp, fun h => by rw [h.2.2]; simp⟩
  | cons v vs ih =>
    simp only [insertMany, bind_eq_ok, insert_eq_ok, ih, List.forall₂_cons_left_iff]
    constructor
    · rintro ⟨-, ⟨r, hr, hrt, rfl⟩, rs, hrs, hrst, hp, rfl⟩
      refine ⟨r :: rs, ⟨r, rs, hr, hrs, rfl⟩, ?_, ?_, by simp⟩
      · intro q hq p hp'
        rcases List.mem_cons.1 hp' with rfl | hp'
        · exact hrt q hq
        · exact hrst q (List.mem_append_left _ hq) p hp'
      · exact List.pairwise_cons.2 ⟨fun p hp' => hrst r (by simp) p hp', hp⟩
    · rintro ⟨-, ⟨r, rs, hr, hrs, rfl⟩, ht, hp, rfl⟩
      rw [List.pairwise_cons] at hp
      refine ⟨t ++ [r], ⟨r, hr, fun q hq => ht q hq r List.mem_cons_self, rfl⟩, rs, hrs, ?_, hp.2,
        by simp⟩
      intro q hq p hp'
      rcases List.mem_append.1 hq with hq | hq
      · exact ht q hq p (List.mem_cons_of_mem _ hp')
      · rw [List.mem_singleton.1 hq]; exact hp.1 p hp'

/-- Inserting parameters whose rows are known and pairwise distinct. -/
theorem insertMany_of_rows {t t' : List (Row C F)} {vs : List (C → Value F)} {rs : List (Row C F)}
    (hwrite : List.Forall₂ (fun v r => sch.write v = .ok r) vs rs)
    (hpair : rs.Pairwise fun q r => sch.clash r q = false) : sch.insertMany t vs = .ok t' ↔
      (∀ q ∈ t, ∀ r ∈ rs, sch.clash r q = false) ∧ t' = t ++ rs := by
  rw [insertMany_eq_ok]
  constructor
  · rintro ⟨rs', hrs', hclash, -, rfl⟩
    have hunique : Relator.RightUnique fun (v : C → Value F) r => sch.write v = .ok r := fun v r r' h h' =>
      Except.ok.inj (h.symm.trans h')
    rw [hunique.forall₂ hwrite hrs']
    exact ⟨hclash, rfl⟩
  · rintro ⟨hclash, rfl⟩
    exact ⟨rs, hwrite, hclash, hpair, rfl⟩

/-- A row after `SET`. -/
def assigned (sets : C → Option (Value F)) (r : Row C F) : Row C F := fun c => match sets c with
  | some v => sch.cell c v
  | none => r c

theorem assigned_some {sets : C → Option (Value F)} {c : C} {v : Value F} (h : sets c = some v) (r : Row C F) :
    sch.assigned sets r c = sch.cell c v := by rw [assigned, h]

theorem assigned_none {sets : C → Option (Value F)} {c : C} (h : sets c = none) (r : Row C F) :
    sch.assigned sets r c = r c := by rw [assigned, h]

/-- An update succeeds exactly when the assigned values are stored and no required column is cleared. -/
theorem update_eq_ok {t t' : List (Row C F)} {sets : C → Option (Value F)} {c : C} {v : Value F} :
    sch.update t sets c v = .ok t' ↔ ∃ x, bind v = .ok x ∧ (∀ c v, sets c = some v → Bindable v = true) ∧
      (∀ r ∈ t, sch.is c x r = true → ∀ c, sch.notNull c = true → (sch.assigned sets r c).isNull = false) ∧
      t' = t.map fun r => if sch.is c x r then sch.assigned sets r else r := by
  have hb : Ok (sch.columns.mapM fun c => bind ((sets c).getD .none)) ↔
      ∀ c v, sets c = some v → Bindable v = true := by
    rw [ok_mapM]
    constructor
    · intro h c v hv
      have hc := (ok_bind_iff _).1 (h c (sch.complete c))
      rwa [hv] at hc
    · intro h c _
      rw [ok_bind_iff]
      cases hc : sets c with
      | none => rfl
      | some v => exact h c v hc
  have hn (x : Cell F) : ((t.filter (sch.is c x)).any fun r =>
        sch.columns.any fun c => sch.notNull c && (sch.assigned sets r c).isNull) = false ↔
      ∀ r ∈ t, sch.is c x r = true → ∀ c, sch.notNull c = true → (sch.assigned sets r c).isNull = false := by
    simp only [List.any_eq_false, List.mem_filter, and_imp, Bool.and_eq_true, not_and, Bool.not_eq_true]
    exact forall₃_congr fun r _ _ => ⟨fun h c => h c (sch.complete c), fun h c _ => h c⟩
  have hupdate : sch.update t sets c v = ((sch.columns.mapM fun c => bind ((sets c).getD .none)) >>= fun _ =>
      bind v >>= fun x => if ((t.filter (sch.is c x)).any fun r =>
          sch.columns.any fun c => sch.notNull c && (sch.assigned sets r c).isNull) = true then .error .integrity
        else .ok (t.map fun r => if sch.is c x r then sch.assigned sets r else r)) := by
    rw [update]
    refine bind_congr fun _ => bind_congr fun x => ?_
    show (if _ then _ else _) = _
    rfl
  rw [hupdate, bind_eq_ok]
  constructor
  · rintro ⟨_, hm, h⟩
    obtain ⟨x, hx, h⟩ := bind_eq_ok.1 h
    split_ifs at h with hnull
    cases h
    exact ⟨x, hx, hb.1 ⟨_, hm⟩, (hn x).1 (Bool.eq_false_iff.2 hnull), rfl⟩
  · rintro ⟨x, hx, h1, h2, rfl⟩
    obtain ⟨us, hus⟩ := hb.2 h1
    exact ⟨us, hus, bind_eq_ok.2 ⟨x, hx, if_neg (Bool.eq_false_iff.1 ((hn x).2 h2))⟩⟩

end Schema

end Sqlite
