import Steward.Py.JsonRoundTrip
import Steward.Py.Runtime

/-!
# Encodable JSON text

The text of a strict JSON value can be encoded, whatever the style.
-/

namespace Py

namespace Json

open Text

variable {F : Type} [Runtime F]

theorem hexDigit_lt (n : Nat) : (hexDigit n).val < 0xD800 := by
  unfold hexDigit
  split_ifs with h
  · show 48 + n % 16 < 0xD800
    omega
  · show 87 + n % 16 < 0xD800
    omega

theorem unicodeEscape_encodable (n : Nat) : (unicodeEscape n).encodable = true := by
  refine encodable_of_lt fun c hc => ?_
  simp only [unicodeEscape, List.mem_cons, List.not_mem_nil, or_false] at hc
  rcases hc with rfl | rfl | rfl | rfl | rfl | rfl
  · decide
  · decide
  all_goals exact hexDigit_lt _

theorem escapePoint_encodable (ascii : Bool) {c : CodePoint} (h : isSurrogate c = false) :
    (escapePoint ascii c).encodable = true := by
  unfold escapePoint
  split_ifs
  all_goals first
    | decide
    | exact unicodeEscape_encodable _
    | exact encodable_append.2 ⟨unicodeEscape_encodable _, unicodeEscape_encodable _⟩
    | exact encodable_cons.2 ⟨h, rfl⟩

theorem quote_encodable (st : Style) {s : Text} (h : s.encodable = true) : (quote st s).encodable = true := by
  refine encodable_cons.2 ⟨by decide, encodable_append.2 ⟨?_, by decide⟩⟩
  induction s with
  | nil => rfl
  | cons c s ih =>
    obtain ⟨hc, hs⟩ := encodable_cons.1 h
    rw [List.flatMap_cons]
    exact encodable_append.2 ⟨escapePoint_encodable _ hc, ih hs⟩

theorem join_encodable {sep : Text} (hsep : sep.encodable = true) {ts : List Text}
    (h : ∀ t ∈ ts, t.encodable = true) : (join sep ts).encodable = true := by
  induction ts with
  | nil => rfl
  | cons t ts ih =>
    rw [List.forall_mem_cons] at h
    cases ts with
    | nil => exact h.1
    | cons u ts =>
      rw [join_cons_cons]
      exact encodable_append.2 ⟨encodable_append.2 ⟨h.1, hsep⟩, ih h.2⟩

theorem comma_encodable (st : Style) : st.comma.encodable = true := by
  unfold Style.comma
  split_ifs <;> decide

theorem colon_encodable (st : Style) : st.colon.encodable = true := by
  unfold Style.colon
  split_ifs <;> decide

/-- The text of a strict JSON value can be encoded. -/
theorem render_encodable (st : Style) {v : Value F} (h : v.safe = true) : (render st v).encodable = true := by
  induction v using Value.induct with
  | none => exact (by decide : (txt "null").encodable = true)
  | bool b =>
    cases b
    · exact (by decide : (txt "false").encodable = true)
    · exact (by decide : (txt "true").encodable = true)
  | int n => exact ofInt_encodable n
  | float x =>
    rw [render, floatText_finite h]
    exact PyFloat.repr_encodable x
  | str s => exact quote_encodable st h
  | list xs ih =>
    rw [Value.safe_list] at h
    rw [render, renderList_eq]
    refine encodable_cons.2 ⟨by decide, encodable_append.2
      ⟨join_encodable (comma_encodable st) fun t ht => ?_, by decide⟩⟩
    obtain ⟨x, hx, rfl⟩ := List.mem_map.1 ht
    exact ih x hx (h x hx)
  | dict fs ih =>
    rw [Value.safe_dict] at h
    rw [render, renderFields_eq]
    refine encodable_cons.2 ⟨by decide, encodable_append.2
      ⟨join_encodable (comma_encodable st) fun t ht => ?_, by decide⟩⟩
    obtain ⟨f, hf, rfl⟩ := List.mem_map.1 ht
    refine encodable_append.2 ⟨encodable_append.2 ⟨quote_encodable st ?_, colon_encodable st⟩, ?_⟩
    · exact h.1 _ (List.mem_map_of_mem hf)
    · exact ih f hf (h.2 f hf)

end Json

end Py
