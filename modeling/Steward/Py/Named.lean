import Steward.Py.Text

/-!
# Named alternatives

A finite type whose members have pairwise distinct ASCII names: the keys of a
record, or the members of a string enumeration. The laws are proved from the cases where
an instance does not say how. `ofName?` inverts `name`.
-/

namespace Py

class Named (α : Type) where
  all : List α
  name : α → Text
  complete : ∀ a, a ∈ all := by intro a; cases a <;> decide
  nodup : (all.map name).Nodup := by simp [txt_inj]
  ascii : ((all.map name).all fun t => t.all fun c => c.val < 128) = true := by
    exact List.all_eq_true.2 (List.forall_mem_map.2 fun a _ => by cases a <;> exact all_txt (by decide))

namespace Named

variable {α : Type} [Named α]

theorem name_inj {a b : α} (h : name a = name b) : a = b :=
  List.inj_on_of_nodup_map nodup (complete a) (complete b) h

@[simp] theorem name_eq_iff {a b : α} : name a = name b ↔ a = b := ⟨name_inj, congrArg name⟩

theorem encodable (a : α) : (name a).encodable = true := by
  have hname := List.all_eq_true.1 ascii (name a) (List.mem_map_of_mem (complete a))
  rw [Text.encodable, List.all_eq_true]
  intro c hc
  have hlt := of_decide_eq_true (List.all_eq_true.1 hname c hc)
  simp only [Text.isSurrogate, Bool.not_eq_true', Bool.and_eq_false_iff, decide_eq_false_iff_not]
  omega

theorem all_nodup : (all : List α).Nodup := List.Nodup.of_map _ nodup

instance decidableForall {p : α → Prop} [DecidablePred p] : Decidable (∀ a, p a) :=
  decidable_of_iff (∀ a ∈ (all : List α), p a) ⟨fun h a => h a (complete a), fun h a _ => h a⟩

/-- The member with a given name. -/
def ofName? (t : Text) : Option α := all.find? fun a => name a = t

theorem ofName?_eq_some {t : Text} {a : α} : ofName? t = some a ↔ name a = t := by
  constructor
  · intro h
    simpa using List.find?_some h
  · rintro rfl
    cases h : ofName? (α := α) (name a) with
    | none =>
      have := List.find?_eq_none.1 h a (complete a)
      simp at this
    | some b =>
      have hb : name b = name a := by simpa using List.find?_some h
      rw [name_inj hb]

@[simp] theorem ofName?_name (a : α) : ofName? (name a) = some a := ofName?_eq_some.2 rfl

theorem ofName?_eq_none {t : Text} : ofName? (α := α) t = none ↔ ∀ a : α, name a ≠ t := by
  constructor
  · rintro h a rfl
    simp at h
  · intro h
    cases h' : ofName? (α := α) t with
    | none => rfl
    | some a => exact absurd (ofName?_eq_some.1 h') (h a)

end Named

end Py
