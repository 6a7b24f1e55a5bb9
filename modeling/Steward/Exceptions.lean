import Steward.Sqlite.Table

/-!
# Exceptions

What the modelled functions raise: built-in exceptions, `sqlite3` errors, the
`StewardError` classes of `errors.py`, the `ValueError` of the MCP decoder, the
test-only `FaultInjectionError`, and the `RecursionError` of a call that does
not bottom out.
-/

namespace Steward

open Py

/-- The `StewardError` classes raised by the modelled code. -/
inductive StewardError where
  | evidenceError
  | evidenceConflictError
  | runNotFoundError
  | runKindError
  | invalidRunTransitionError
  | storageBusyError
  | storageCorruptionError
  | storageError
  | rebuildConfirmationError
  | snapshotNotFoundError
  | snapshotBudgetError
  | snapshotScopeError
  | snapshotAcquisitionConfirmationError
  | snapshotAcquisitionNotGovernedError
  | snapshotAcquisitionRecoveryRequiredError
  | snapshotAcquisitionIntegrityError
  | snapshotAcquisitionCancelledError
  | relationError
  | duplicateAnalysisError
  | structureError
  | agentRoutingRequestError
  | agentRouteGrantError
  | agentRouteGrantReusedError
  | agentPublicationError
  | diffError
  | projectionRequestError
  | projectionInvariantError
  deriving DecidableEq, Repr

/-- The `sqlite3.Error` classes. -/
inductive SqliteError where
  | integrityError
  | operationalError
  | programmingError
  deriving DecidableEq, Repr

inductive Exc where
  | python (e : Py.Error)
  | sqlite (e : SqliteError)
  | steward (e : StewardError)
  | mcpArgumentError
  | fault
  | stackOverflow
  deriving DecidableEq, Repr

def Exc.ofSqlite : Sqlite.Error → Exc
  | .overflow => .python .overflowError
  | .unicodeEncode => .python .unicodeEncodeError
  | .programming => .sqlite .programmingError
  | .integrity => .sqlite .integrityError
  | .operational => .sqlite .operationalError

abbrev Result (α : Type) := Except Exc α

/-- A Python operation. -/
def py {α : Type} (x : Except Py.Error α) : Result α := x.mapError .python

/-- A database operation. -/
def sql {α : Type} (x : Except Sqlite.Error α) : Result α := x.mapError .ofSqlite

section
variable {α : Type}

@[simp] theorem py_eq_ok {x : Except Py.Error α} {a : α} : py x = .ok a ↔ x = .ok a := by
  cases x <;> simp [py, Except.mapError]

@[simp] theorem sql_eq_ok {x : Except Sqlite.Error α} {a : α} : sql x = .ok a ↔ x = .ok a := by
  cases x <;> simp [sql, Except.mapError]

@[simp] theorem py_ok (a : α) : py (.ok a : Except Py.Error α) = .ok a := rfl

@[simp] theorem sql_ok (a : α) : sql (.ok a : Except Sqlite.Error α) = .ok a := rfl

@[simp] theorem ok_py_iff {x : Except Py.Error α} : Ok (py x) ↔ Ok x := by simp [Ok]

@[simp] theorem ok_sql_iff {x : Except Sqlite.Error α} : Ok (sql x) ↔ Ok x := by simp [Ok]

end

/-! ## No recursion error -/

section
variable {α β : Type}

/-- The result is no `RecursionError`. -/
def Bounded (x : Result α) : Prop := x ≠ .error .stackOverflow

@[simp] theorem bounded_ok (a : α) : Bounded (.ok a) := by rintro ⟨⟩

@[simp] theorem bounded_pure (a : α) : Bounded (pure a) := by rintro ⟨⟩

@[simp] theorem bounded_steward (e : StewardError) : Bounded (.error (.steward e) : Result α) := by
  rintro ⟨⟩

@[simp] theorem bounded_python (e : Py.Error) : Bounded (.error (.python e) : Result α) := by
  rintro ⟨⟩

@[simp] theorem bounded_py (x : Except Py.Error α) : Bounded (py x) := by
  cases x <;> simp [py, Except.mapError]

@[simp] theorem bounded_sql (x : Except Sqlite.Error α) : Bounded (sql x) := by
  rcases x with e | a
  · cases e <;> rintro ⟨⟩
  · simp

theorem Bounded.bind {x : Result α} {f : α → Result β} (hx : Bounded x)
    (hf : ∀ a, x = .ok a → Bounded (f a)) : Bounded (x >>= f) := by
  intro h
  rcases bind_eq_error.1 h with h | ⟨a, ha, h⟩
  · exact hx h
  · exact hf a ha h

theorem Bounded.map {x : Result α} (hx : Bounded x) (f : α → β) : Bounded (f <$> x) := by
  cases x with
  | ok a => exact bounded_ok _
  | error e => exact fun h => hx (by cases h; rfl)

theorem Bounded.mapM {f : α → Result β} {xs : List α} (h : ∀ x ∈ xs, Bounded (f x)) :
    Bounded (xs.mapM f) := by
  induction xs with
  | nil => exact bounded_pure _
  | cons x xs ih =>
    rw [List.mapM_cons]
    refine (h x List.mem_cons_self).bind fun _ _ => ?_
    exact (ih fun y hy => h y (List.mem_cons_of_mem _ hy)).bind fun _ _ => bounded_pure _

theorem Bounded.ite {c : Prop} [Decidable c] {x y : Result α} (hx : Bounded x) (hy : Bounded y) :
    Bounded (if c then x else y) := by split_ifs <;> assumption

theorem Bounded.cases {x : Result α} (h : Bounded x) :
    (∃ a, x = .ok a) ∨ ∃ e, x = .error e ∧ e ≠ .stackOverflow := by
  cases x with
  | ok a => exact .inl ⟨a, rfl⟩
  | error e => exact .inr ⟨e, rfl, fun he => h (by rw [he])⟩

end

/-! ## Short-circuit evaluation -/

section
variable {ε α : Type}

/-- `a and b` -/
def andThen (a b : Except ε Bool) : Except ε Bool := a >>= fun x => if x then b else .ok false

/-- `all(f(x) for x in xs)` -/
def allM (f : α → Except ε Bool) : List α → Except ε Bool
  | [] => .ok true
  | x :: xs => andThen (f x) (allM f xs)

/-- The items `all` looks at: up to and including the first that fails `p`. -/
def reached (p : α → Bool) : List α → List α
  | [] => []
  | x :: xs => if p x then x :: reached p xs else [x]

/-- The test `m` returns exactly when `t` holds, and then it says `v`. -/
def Checks (m : Except ε Bool) (t v : Bool) : Prop := ∀ b, m = .ok b ↔ t = true ∧ b = v

theorem Checks.ok {m : Except ε Bool} {t v : Bool} (h : Checks m t v) : Ok m ↔ t = true :=
  ⟨fun ⟨b, hb⟩ => ((h b).1 hb).1, fun ht => ⟨v, (h v).2 ⟨ht, rfl⟩⟩⟩

theorem Checks.eq_true {m : Except ε Bool} {t v : Bool} (h : Checks m t v) :
    m = .ok true ↔ t = true ∧ v = true := by rw [h true, eq_comm (a := true)]

theorem checks_ok (v : Bool) : Checks (.ok v : Except ε Bool) true v := fun b => by
  simp [eq_comm]

theorem Checks.of_eq {m : Except ε Bool} {t v t' v' : Bool} (h : Checks m t v) (ht : t = t')
    (hv : t = true → v = v') : Checks m t' v' := by
  subst ht
  intro b
  rw [h b]
  exact and_congr_right fun ht => by rw [hv ht]

theorem Checks.andThen {a b : Except ε Bool} {t v t' v' : Bool} (ha : Checks a t v)
    (hb : v = true → Checks b t' v') : Checks (andThen a b) (t && (!v || t')) (v && v') := by
  intro x
  rw [Steward.andThen, bind_eq_ok]
  cases v with
  | false => simp [ha _]
  | true => simp [ha _, hb rfl x, and_assoc]

theorem checks_ite {c : Bool} {a b : Except ε Bool} {t v t' v' : Bool}
    (ha : c = true → Checks a t v) (hb : c = false → Checks b t' v') :
    Checks (if c then a else b) (if c then t else t') (if c then v else v') := by
  cases c with
  | true => exact ha rfl
  | false => exact hb rfl

theorem checks_allM {f : α → Except ε Bool} {t v : α → Bool} {xs : List α}
    (h : ∀ x ∈ xs, Checks (f x) (t x) (v x)) :
    Checks (allM f xs) ((reached v xs).all t) (xs.all v) := by
  induction xs with
  | nil => exact checks_ok true
  | cons x xs ih =>
    have hx := (h x List.mem_cons_self).andThen (b := allM f xs) fun _ =>
      ih fun y hy => h y (List.mem_cons_of_mem _ hy)
    refine hx.of_eq ?_ fun _ => rfl
    cases hv : v x <;> simp [reached, hv]

theorem Checks.ok_bind {β : Type} {m : Except Py.Error Bool} {t v : Bool} (h : Checks m t v)
    {f : Bool → Result β} : Ok (py m >>= f) ↔ t = true ∧ Ok (f v) := by
  simp only [Py.ok_bind, py_eq_ok, h _]
  exact ⟨fun ⟨_, ⟨ht, hb⟩, hf⟩ => ⟨ht, hb ▸ hf⟩, fun ⟨ht, hf⟩ => ⟨v, ⟨ht, rfl⟩, hf⟩⟩

end

end Steward
