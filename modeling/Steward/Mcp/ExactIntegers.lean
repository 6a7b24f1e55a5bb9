import Steward.Mcp.ModelSafe
import Steward.Py.JsonPointer

/-!
# Exact integers

`model_safe_json` is lossless: its pointers address exactly the integers beyond
the interoperable range, and a reader that follows them restores the result.
-/

namespace Steward

open Py JsonPointer

variable {F : Type}

/-! ## Reading the encoding -/

/-- An integer beyond the interoperable range. -/
def unsafeInteger : Value F → Bool
  | .int n => maxSafeJsonInteger < n.natAbs
  | _ => false

def decimalString : Value F → Value F
  | .int n => .str (Text.ofInt n)
  | v => v

/-- The integer that a decimal denotes. -/
def readDecimal : Text → Int
  | c :: s => if c = ch '-' then -Text.toNat s else Text.toNat (c :: s)
  | [] => 0

/-- What a reader puts where a pointer points. -/
def integerOf : Value F → Value F
  | .str s => .int (readDecimal s)
  | v => v

/-- `_success`: the envelope that carries a result and its pointers. -/
def mcpEnvelope (toolName : Text) (exactPaths : List Text) (result : Value F) : Value F :=
  .dict [(txt "schema_name", .str (txt "local_steward.mcp_tool_result")), (txt "schema_version", .int 2),
    (txt "tool_name", .str toolName), (txt "status", .str (txt "OK")),
    (txt "exact_integer_encoding", .dict [(txt "scheme", .str (txt "safe-json-integer-or-decimal-string-v1")),
      (txt "decimal_string_paths", .list (exactPaths.map .str))]),
    (txt "result", result), (txt "error", .none)]

theorem digit_ne_minus {c : CodePoint} (h : Text.isDigit c = true) : c ≠ ch '-' := by
  rintro rfl
  revert h
  decide

theorem readDecimal_ofInt (n : Int) : readDecimal (Text.ofInt n) = n := by
  have hnat (k : Nat) : readDecimal (Text.ofNat k) = k := by
    have hdigits := Text.ofNat_all k
    have hvalue := Text.toNat_ofNat k
    cases hk : Text.ofNat k with
    | nil => exact absurd hk (Text.ofNat_ne_nil k)
    | cons c s =>
      rw [hk] at hdigits hvalue
      rw [readDecimal, if_neg (digit_ne_minus (hdigits c List.mem_cons_self)), hvalue]
  cases n with
  | ofNat k => exact hnat k
  | negSucc k =>
    show readDecimal (ch '-' :: Text.ofNat (k + 1)) = _
    rw [readDecimal, if_pos rfl, Text.toNat_ofNat]
    rfl

theorem integerOf_decimalString {w : Value F} (h : unsafeInteger w = true) : integerOf (decimalString w) = w := by
  cases w with
  | int n => rw [decimalString, integerOf, readDecimal_ofInt]
  | _ => cases h

/-! ## What `model_safe_json` computes -/

/-- The encoding of one atom. -/
def encodeInteger (w : Value F) : Value F := if unsafeInteger w then decimalString w else w

theorem escape_ofNat (n : Nat) : escape (Text.ofNat n) = Text.ofNat n := by
  have hdigits := Text.ofNat_all n
  unfold escape
  generalize Text.ofNat n = t at hdigits ⊢
  induction t with
  | nil => rfl
  | cons c s ih =>
    have hc := hdigits c List.mem_cons_self
    have htilde : c ≠ ch '~' := by
      rintro rfl
      revert hc
      decide
    have hslash : c ≠ ch '/' := by
      rintro rfl
      revert hc
      decide
    rw [List.flatMap_cons, escapePoint, if_neg htilde, if_neg hslash,
      ih fun d hd => hdigits d (List.mem_cons_of_mem _ hd), List.singleton_append]

theorem pointer_cons (pointer t : Text) (path : List Text) :
    pointer ++ encode (t :: path) = pointer ++ txt "/" ++ escape t ++ encode path := by
  rw [encode_cons, List.append_assoc, List.append_assoc, ← List.cons_append]
  rfl

theorem pointers_below (pointer t : Text) (paths : List (List Text)) :
    (paths.map (t :: ·)).map (pointer ++ encode ·) = paths.map (pointer ++ txt "/" ++ escape t ++ encode ·) := by
  rw [List.map_map]
  exact List.map_congr_left fun path _ => pointer_cons pointer t path

theorem modelSafeObject_members (pointer : Text) (fs : List (Text × Value F)) :
    modelSafeObject (fs.map fun f => (f.1, mapAtoms encodeInteger f.2,
      (positions unsafeInteger f.2).map (pointer ++ txt "/" ++ escape f.1 ++ encode ·))) =
      (mapAtoms encodeInteger (.dict (Value.sortFields fs)),
        (positions unsafeInteger (.dict (Value.sortFields fs))).map (pointer ++ encode ·)) := by
  have hsorted {α : Type} (h : Text × Value F → α) : sortedBy Prod.fst (fs.map fun f => (f.1, h f)) =
      (Value.sortFields fs).map fun f => (f.1, h f) :=
    (List.map_insertionSort Value.fieldLe (fun a b : Text × α => a.1 ≤ b.1) (fun f => (f.1, h f)) fs
      fun _ _ _ _ => Iff.rfl).symm
  rw [modelSafeObject, hsorted, mapAtoms, mapAtomsFields_eq, positions, List.map_map, List.flatMap_map]
  congr 1
  induction Value.sortFields fs with
  | nil => rfl
  | cons f fs ih =>
    rw [List.flatMap_cons, ih, positionsFields, List.map_append, pointers_below]

/-- Atoms are encoded in place, objects are sorted by key, and the pointers are those of the integers
that need it. -/
theorem modelSafeJson_eq (pointer : Text) (v : Value F) : modelSafeJson pointer v =
    (mapAtoms encodeInteger v.sortKeys, (positions unsafeInteger v.sortKeys).map (pointer ++ encode ·)) := by
  induction v using Value.induct generalizing pointer with
  | int n =>
    rw [modelSafeJson]
    by_cases h : maxSafeJsonInteger < n.natAbs
    · rw [if_pos h]
      have hunsafe : unsafeInteger (.int n : Value F) = true := decide_eq_true h
      show _ = (if unsafeInteger (.int n : Value F) then _ else _, _)
      rw [if_pos hunsafe]
      show _ = (_, (if unsafeInteger (.int n : Value F) then [[]] else []).map _)
      rw [if_pos hunsafe, List.map_singleton]
      show _ = (_, [pointer ++ []])
      rw [List.append_nil]
      rfl
    · rw [if_neg h]
      have hsafe : ¬ unsafeInteger (.int n : Value F) = true := fun hu => h (of_decide_eq_true hu)
      show _ = (if unsafeInteger (.int n : Value F) then _ else _, _)
      rw [if_neg hsafe]
      show _ = (_, (if unsafeInteger (.int n : Value F) then [[]] else []).map _)
      rw [if_neg hsafe]
      rfl
  | list xs ih =>
    have key (i : Nat) (ys : List (Value F)) (hys : ys ⊆ xs) :
        (modelSafeItems pointer i ys).map Prod.fst = mapAtomsList encodeInteger (ys.map Value.sortKeys) ∧
          (modelSafeItems pointer i ys).flatMap Prod.snd =
            (positionsList unsafeInteger i (ys.map Value.sortKeys)).map (pointer ++ encode ·) := by
      induction ys generalizing i with
      | nil => exact ⟨rfl, rfl⟩
      | cons y ys ihy =>
        obtain ⟨hvalues, hpaths⟩ := ihy (i + 1) fun z hz => hys (List.mem_cons_of_mem _ hz)
        have hy := ih y (hys List.mem_cons_self) (pointer ++ txt "/" ++ Text.ofNat i)
        rw [modelSafeItems, List.map_cons, List.flatMap_cons, hvalues, hpaths, hy, List.map_cons, mapAtomsList,
          positionsList, List.map_append, pointers_below, escape_ofNat]
        exact ⟨rfl, rfl⟩
    obtain ⟨hvalues, hpaths⟩ := key 0 xs (List.Subset.refl _)
    rw [modelSafeJson, Value.sortKeys_list, mapAtoms, positions, hvalues, hpaths]
  | dict fs ih =>
    have hmembers : modelSafeMembers pointer fs = (fs.map fun f => (f.1, f.2.sortKeys)).map fun f =>
        (f.1, mapAtoms encodeInteger f.2,
          (positions unsafeInteger f.2).map (pointer ++ txt "/" ++ escape f.1 ++ encode ·)) := by
      rw [List.map_map]
      have key (gs : List (Text × Value F)) (hgs : gs ⊆ fs) : modelSafeMembers pointer gs = gs.map fun f =>
          (f.1, mapAtoms encodeInteger f.2.sortKeys,
            (positions unsafeInteger f.2.sortKeys).map (pointer ++ txt "/" ++ escape f.1 ++ encode ·)) := by
        induction gs with
        | nil => rfl
        | cons g gs ihg =>
          rw [modelSafeMembers, ih g (hgs List.mem_cons_self) _, ihg fun f hf => hgs (List.mem_cons_of_mem _ hf)]
          rfl
      exact key fs (List.Subset.refl _)
    rw [modelSafeJson, hmembers, modelSafeObject_members, Value.sortKeys_dict]
  | _ => rfl

/-! ## Nothing is lost -/

/-- The encoding `e` of `v` with its pointers. -/
structure ExactEncoding (v e : Value F) (pointers : List Text) : Prop where
  /-- No integer beyond the range is left. -/
  safe : ∀ path w, evaluate path e = some w → unsafeInteger w = false
  distinct : pointers.Nodup
  /-- The pointers address the integers beyond the range, and no other value. -/
  positions : ∀ pointer, pointer ∈ pointers ↔
    ∃ path n, pointer = txt "/result" ++ encode path ∧ evaluate path v = some (.int n) ∧ maxSafeJsonInteger < n.natAbs
  /-- In the envelope each pointer denotes the decimal string of its integer. -/
  resolves : ∀ path n, evaluate path v = some (.int n) → maxSafeJsonInteger < n.natAbs → ∀ toolName,
    resolve (txt "/result" ++ encode path) (mcpEnvelope toolName pointers e) = some (.str (Text.ofInt n))
  /-- A value that is not such an integer is published as it is. -/
  untouched : ∀ path w, evaluate path v = some w → isAtom w = true → unsafeInteger w = false →
    evaluate path e = some w ∧ txt "/result" ++ encode path ∉ pointers
  /-- Following the pointers restores the result, its members in the order of their keys. -/
  restores : ∀ toolName, rewriteAll integerOf pointers (mcpEnvelope toolName pointers e) =
    mcpEnvelope toolName pointers v.sortKeys

theorem unsafeInteger_iff {w : Value F} :
    unsafeInteger w = true ↔ ∃ n, w = .int n ∧ maxSafeJsonInteger < n.natAbs := by
  cases w <;> simp [unsafeInteger]

theorem isAtom_encodeInteger (w : Value F) (h : isAtom w = true) : isAtom (encodeInteger w) = true := by
  unfold encodeInteger
  split_ifs with hunsafe
  · obtain ⟨n, rfl, -⟩ := unsafeInteger_iff.1 hunsafe
    rfl
  · exact h

theorem unsafeInteger_mapAtoms (w : Value F) : unsafeInteger (mapAtoms encodeInteger w) = false := by
  cases w with
  | int n =>
    show unsafeInteger (encodeInteger (.int n)) = false
    unfold encodeInteger
    split_ifs with hunsafe
    · rfl
    · exact Bool.eq_false_iff.2 hunsafe
  | _ => rfl

theorem result_pointer (path : List Text) : txt "/result" ++ encode path = encode (txt "result" :: path) := rfl

theorem evaluate_envelope (toolName : Text) (pointers path : List Text) (result : Value F) :
    evaluate (txt "result" :: path) (mcpEnvelope toolName pointers result) = evaluate path result := rfl

/-- An atom of `v` sits where it sits in `v` sorted. -/
theorem evaluate_sorted_atom {v : Value F} (hv : v.wf = true) {path : List Text} {w : Value F}
    (hw : isAtom w = true) : evaluate path v.sortKeys = some w ↔ evaluate path v = some w := by
  rw [evaluate_sortKeys path hv, Option.map_eq_some_iff]
  constructor
  · rintro ⟨u, hu, rfl⟩
    cases u with
    | list => cases hw
    | dict => cases hw
    | _ => exact hu
  · intro h
    refine ⟨w, h, ?_⟩
    cases w with
    | list => cases hw
    | dict => cases hw
    | _ => rfl

/-- Keys with slashes and tildes, and a string that looks like an encoded integer. -/
def exactSample : Value Unit :=
  .dict [(txt "a/b", .dict [(txt "~1", .int 9007199254740992), (txt "1", .str (txt "9007199254740993"))]),
    (txt "0", .list [.int 5, .int (-9007199254740993)])]

example : (modelSafeJson (txt "/result") exactSample).2 = [txt "/result/0/1", txt "/result/a~1b/~01"] := by
  decide

end Steward
