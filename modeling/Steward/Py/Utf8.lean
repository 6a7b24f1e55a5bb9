import Steward.Py.Text

/-!
# Decoding UTF-8

`bytes.decode("utf-8", errors)` for the error handlers `replace` and
`surrogateescape`. The decoder is a machine over the bytes that keeps the bytes
of an unfinished sequence; what it emits are pieces: a code point, or a maximal
run of bytes that starts no sequence. The handlers differ only in the text they
put for an invalid piece.

No byte is lost (`flatMap_bytes_pieces`), and an ASCII byte ends whatever was
unfinished, so decoding commutes with splitting at one (`pieces_append_ascii`).
-/

namespace Py

namespace Utf8

open Text

/-- What decoding finds in a byte string. -/
inductive Piece where
  | point (c : CodePoint)
  | invalid (bs : List Byte)
  deriving DecidableEq, Repr

/-- The bytes a piece was read from. -/
def Piece.bytes : Piece → List Byte
  | .point c => utf8Point c
  | .invalid bs => bs

def Piece.isPoint : Piece → Bool
  | .point _ => true
  | .invalid _ => false

/-- The number a sequence of that length would denote. -/
def value : List Byte → Nat
  | [a] => a.val
  | [a, b] => a.val % 32 * 64 + b.val % 64
  | [a, b, c] => a.val % 16 * 4096 + b.val % 64 * 64 + c.val % 64
  | [a, b, c, d] => a.val % 8 * 262144 + b.val % 64 * 4096 + c.val % 64 * 64 + d.val % 64
  | _ => 0

/-- The code point these bytes encode. -/
def scalar? (bs : List Byte) : Option CodePoint :=
  if h : value bs < 0x110000 then
    let c : CodePoint := ⟨value bs, h⟩
    if utf8Point c = bs ∧ isSurrogate c = false then some c else none
  else none

def isTail (b : Byte) : Bool := 0x80 ≤ b.val && b.val ≤ 0xBF

/-- The second bytes that a first byte admits. -/
def admits (a b : Byte) : Bool :=
  if a.val = 0xE0 then 0xA0 ≤ b.val && b.val ≤ 0xBF
  else if a.val = 0xED then 0x80 ≤ b.val && b.val ≤ 0x9F
  else if a.val = 0xF0 then 0x90 ≤ b.val && b.val ≤ 0xBF
  else if a.val = 0xF4 then 0x80 ≤ b.val && b.val ≤ 0x8F
  else isTail b

/-- The start of a longer sequence. -/
def unfinished : List Byte → Bool
  | [a] => 0xC2 ≤ a.val && a.val ≤ 0xF4
  | [a, b] => 0xE0 ≤ a.val && a.val ≤ 0xF4 && admits a b
  | [a, b, c] => 0xF0 ≤ a.val && a.val ≤ 0xF4 && admits a b && isTail c
  | _ => false

/-- What is left over when a sequence breaks off. -/
def flush (pending : List Byte) : List Piece := if pending = [] then [] else [.invalid pending]

/-- One byte: the pieces it completes and the bytes that stay pending. -/
def step (pending : List Byte) (b : Byte) : List Piece × List Byte :=
  match scalar? (pending ++ [b]) with
  | some c => ([.point c], [])
  | none =>
    if unfinished (pending ++ [b]) then ([], pending ++ [b])
    -- the pending bytes are invalid, and `b` starts anew
    else match scalar? [b] with
      | some c => (flush pending ++ [.point c], [])
      | none =>
        if unfinished [b] then (flush pending, [b]) else (flush pending ++ [.invalid [b]], [])

def run (pending : List Byte) : List Byte → List Piece
  | [] => flush pending
  | b :: bs => (step pending b).1 ++ run (step pending b).2 bs

def pieces (bs : List Byte) : List Piece := run [] bs

/-- `bs.decode("utf-8")` succeeds. -/
def valid (bs : List Byte) : Bool := (pieces bs).all Piece.isPoint

def replacement : CodePoint := ⟨0xFFFD, by decide⟩

def Piece.replace : Piece → Text
  | .point c => [c]
  | .invalid _ => [replacement]

/-- A byte of an invalid piece as a lone surrogate. -/
def escapeByte (b : Byte) : CodePoint := ⟨0xDC00 + b.val, by omega⟩

def Piece.escape : Piece → Text
  | .point c => [c]
  | .invalid bs => bs.map escapeByte

/-- `bs.decode("utf-8", "replace")` -/
def decodeReplace (bs : List Byte) : Text := (pieces bs).flatMap Piece.replace

/-- `bs.decode("utf-8", "surrogateescape")`, which is also `os.fsdecode`. -/
def decodeEscape (bs : List Byte) : Text := (pieces bs).flatMap Piece.escape

/-! ## Sequences -/

theorem scalar?_eq_some {bs : List Byte} {c : CodePoint} (h : scalar? bs = some c) :
    utf8Point c = bs ∧ isSurrogate c = false := by
  unfold scalar? at h
  split at h
  · dsimp only at h
    split at h
    · next hc => rw [← Option.some.inj h]; exact hc
    · cases h
  · cases h

/-- The arithmetic of `utf8Point`. -/
theorem utf8Point_eq (c : CodePoint) : utf8Point c =
    if c.val < 0x80 then [Fin.ofNat 256 c.val]
    else if c.val < 0x800 then [Fin.ofNat 256 (0xC0 + c.val / 64), Fin.ofNat 256 (0x80 + c.val % 64)]
    else if c.val < 0x10000 then
      [Fin.ofNat 256 (0xE0 + c.val / 4096), Fin.ofNat 256 (0x80 + c.val / 64 % 64),
        Fin.ofNat 256 (0x80 + c.val % 64)]
    else
      [Fin.ofNat 256 (0xF0 + c.val / 262144), Fin.ofNat 256 (0x80 + c.val / 4096 % 64),
        Fin.ofNat 256 (0x80 + c.val / 64 % 64), Fin.ofNat 256 (0x80 + c.val % 64)] := rfl

theorem utf8Point_ascii {c : CodePoint} (h : c.val < 0x80) :
    utf8Point c = [Fin.ofNat 256 c.val] := by rw [utf8Point_eq, if_pos h]

/-- An ASCII byte occurs only as the encoding of itself. -/
theorem utf8Point_eq_singleton {c : CodePoint} {b : Byte} (h : b ∈ utf8Point c)
    (hb : b.val < 0x80) : c.val = b.val := by
  have hc := c.isLt
  rw [utf8Point_eq] at h
  split_ifs at h with h1 h2 h3
  · rw [List.mem_singleton.1 h, Fin.val_ofNat]; omega
  all_goals
    simp only [List.mem_cons, List.not_mem_nil, or_false] at h
    rcases h with rfl | rfl | rfl | rfl <;> simp only [Fin.val_ofNat] at hb <;> omega

theorem scalar?_ascii {b : Byte} (h : b.val < 0x80) : scalar? [b] = some ⟨b.val, byte_lt b⟩ := by
  have hv : value [b] = b.val := rfl
  unfold scalar?
  rw [dif_pos (by rw [hv]; omega)]
  refine if_pos ⟨?_, ?_⟩
  · rw [utf8Point_ascii (by simpa [hv] using h)]; simp [hv]
  · simp [isSurrogate, hv]; omega

theorem scalar?_append_ascii {p : List Byte} {b : Byte} (hp : p ≠ []) (hb : b.val < 0x80) :
    scalar? (p ++ [b]) = none := by
  cases h : scalar? (p ++ [b]) with
  | none => rfl
  | some c =>
    obtain ⟨hc, -⟩ := scalar?_eq_some h
    have hval : c.val = b.val := utf8Point_eq_singleton (by rw [hc]; simp) hb
    rw [utf8Point_ascii (by omega)] at hc
    cases p with
    | nil => exact absurd rfl hp
    | cons a p => simpa using congrArg List.length hc

theorem unfinished_append_ascii (p : List Byte) {b : Byte} (hb : b.val < 0x80) :
    unfinished (p ++ [b]) = false := by
  match p with
  | [] => simp [unfinished]; omega
  | [a] =>
    have ht : admits a b = false := by unfold admits isTail; split_ifs <;> simp <;> omega
    simp [unfinished, ht]
  | [a, a'] =>
    have ht : isTail b = false := by simp [isTail]; omega
    simp [unfinished, ht]
  | [_, _, _] => rfl
  | _ :: _ :: _ :: _ :: _ => rfl

/-- An ASCII byte ends what was unfinished and stands for itself. -/
theorem step_ascii (p : List Byte) {b : Byte} (hb : b.val < 0x80) :
    step p b = (flush p ++ [.point ⟨b.val, byte_lt b⟩], []) := by
  by_cases hp : p = []
  · subst hp; simp [step, scalar?_ascii hb, flush]
  · simp [step, scalar?_append_ascii hp hb, unfinished_append_ascii p hb, scalar?_ascii hb]

theorem run_append_ascii (p a : List Byte) {b : Byte} (hb : b.val < 0x80) (bs : List Byte) :
    run p (a ++ b :: bs) = run p a ++ .point ⟨b.val, byte_lt b⟩ :: pieces bs := by
  induction a generalizing p with
  | nil => simp [run, step_ascii p hb, pieces]
  | cons x a ih => simp [run, ih]

/-- Decoding splits before and after an ASCII byte. -/
theorem pieces_append_ascii (a : List Byte) {b : Byte} (hb : b.val < 0x80) (bs : List Byte) :
    pieces (a ++ b :: bs) = pieces a ++ .point ⟨b.val, byte_lt b⟩ :: pieces bs :=
  run_append_ascii [] a hb bs

/-! ## No byte is lost -/

theorem flatMap_bytes_flush (p : List Byte) : (flush p).flatMap Piece.bytes = p := by
  by_cases hp : p = [] <;> simp [flush, hp, Piece.bytes]

theorem flatMap_bytes_step (p : List Byte) (b : Byte) :
    (step p b).1.flatMap Piece.bytes ++ (step p b).2 = p ++ [b] := by
  unfold step
  split
  · next c hc => simp [Piece.bytes, (scalar?_eq_some hc).1]
  · split
    · simp
    · split
      · next c hc => simp [flatMap_bytes_flush, Piece.bytes, (scalar?_eq_some hc).1]
      · split <;> simp [flatMap_bytes_flush, Piece.bytes]

theorem flatMap_bytes_run (p bs : List Byte) : (run p bs).flatMap Piece.bytes = p ++ bs := by
  induction bs generalizing p with
  | nil => simp [run, flatMap_bytes_flush]
  | cons b bs ih =>
    rw [run, List.flatMap_append, ih, ← List.append_assoc, flatMap_bytes_step, List.append_assoc]
    rfl

theorem flatMap_bytes_pieces (bs : List Byte) : (pieces bs).flatMap Piece.bytes = bs :=
  flatMap_bytes_run [] bs

theorem mem_of_mem_pieces {bs : List Byte} {x : Piece} {b : Byte} (h : x ∈ pieces bs)
    (hb : b ∈ x.bytes) : b ∈ bs := by
  rw [← flatMap_bytes_pieces bs]
  exact List.mem_flatMap.2 ⟨x, h, hb⟩

theorem eq_of_mem_flush {p : List Byte} {x : Piece} (h : x ∈ flush p) :
    p ≠ [] ∧ x = .invalid p := by
  unfold flush at h
  split_ifs at h with hp
  · cases h
  · exact ⟨hp, List.mem_singleton.1 h⟩

/-- Every decoded point is a scalar value. -/
theorem isSurrogate_of_mem_step {p : List Byte} {b : Byte} {c : CodePoint}
    (h : .point c ∈ (step p b).1) : isSurrogate c = false := by
  have hflush (h : Piece.point c ∈ flush p) : False := by cases (eq_of_mem_flush h).2
  unfold step at h
  split at h
  · next d hd =>
    rw [Piece.point.inj (List.mem_singleton.1 h)]
    exact (scalar?_eq_some hd).2
  · split at h
    · cases h
    · split at h
      · next d hd =>
        rw [Piece.point.inj (List.mem_singleton.1 ((List.mem_append.1 h).resolve_left hflush))]
        exact (scalar?_eq_some hd).2
      · split at h
        · exact absurd h hflush
        · cases List.mem_singleton.1 ((List.mem_append.1 h).resolve_left hflush)

theorem isSurrogate_of_mem_run {p bs : List Byte} {c : CodePoint} (h : .point c ∈ run p bs) :
    isSurrogate c = false := by
  induction bs generalizing p with
  | nil => cases (eq_of_mem_flush h).2
  | cons b bs ih =>
    rcases List.mem_append.1 h with h | h
    · exact isSurrogate_of_mem_step h
    · exact ih h

/-- An invalid piece is not empty. -/
theorem ne_nil_of_mem_step {p ps : List Byte} {b : Byte} (h : .invalid ps ∈ (step p b).1) :
    ps ≠ [] := by
  have hflush (h : Piece.invalid ps ∈ flush p) : ps ≠ [] := by
    obtain ⟨hp, heq⟩ := eq_of_mem_flush h
    rw [Piece.invalid.inj heq]
    exact hp
  unfold step at h
  split at h
  · simp at h
  · split at h
    · cases h
    · split at h
      · exact hflush (by simpa using h)
      · split at h
        · exact hflush h
        · rcases List.mem_append.1 h with h | h
          · exact hflush h
          · rw [Piece.invalid.inj (List.mem_singleton.1 h)]
            exact List.cons_ne_nil _ _

theorem ne_nil_of_mem_run {p bs ps : List Byte} (h : .invalid ps ∈ run p bs) : ps ≠ [] := by
  induction bs generalizing p with
  | nil =>
    obtain ⟨hp, heq⟩ := eq_of_mem_flush h
    rw [Piece.invalid.inj heq]
    exact hp
  | cons b bs ih =>
    rcases List.mem_append.1 h with h | h
    · exact ne_nil_of_mem_step h
    · exact ih h

/-! ## The two handlers -/

/-- A code point that `replace` yields is no surrogate. -/
theorem isSurrogate_of_mem_decodeReplace {bs : List Byte} {c : CodePoint}
    (h : c ∈ decodeReplace bs) : isSurrogate c = false := by
  obtain ⟨x, hx, hc⟩ := List.mem_flatMap.1 h
  cases x with
  | point d => rw [List.mem_singleton.1 hc]; exact isSurrogate_of_mem_run hx
  | invalid ps => rw [List.mem_singleton.1 hc]; decide

/-- Valid UTF-8 is decoded alike whatever the handler. -/
theorem decode_of_valid {bs : List Byte} (h : valid bs = true) :
    decodeReplace bs = decodeEscape bs := by
  have hall : ∀ x ∈ pieces bs, x.replace = x.escape := by
    intro x hx
    have := List.all_eq_true.1 h x hx
    cases x with
    | point c => rfl
    | invalid ps => cases this
  exact List.flatMap_congr hall

/-- Invalid UTF-8 leaves a surrogate under `surrogateescape`. -/
theorem exists_surrogate_of_not_valid {bs : List Byte} (h : valid bs = false) :
    ∃ c ∈ decodeEscape bs, isSurrogate c = true := by
  obtain ⟨x, hx, hpoint⟩ := List.all_eq_false.1 h
  cases x with
  | point c => exact absurd rfl hpoint
  | invalid ps =>
    obtain ⟨b, ps, rfl⟩ := List.exists_cons_of_ne_nil (ne_nil_of_mem_run hx)
    refine ⟨escapeByte b, List.mem_flatMap.2 ⟨_, hx, List.mem_map_of_mem List.mem_cons_self⟩, ?_⟩
    have := b.isLt
    rw [isSurrogate, Bool.and_eq_true]
    exact ⟨decide_eq_true (by simp only [escapeByte]; omega),
      decide_eq_true (by simp only [escapeByte]; omega)⟩

/-- No byte string but the empty one decodes to the empty text. -/
theorem pieces_ne_nil {bs : List Byte} (h : bs ≠ []) : pieces bs ≠ [] := by
  intro hp
  exact h (by rw [← flatMap_bytes_pieces bs, hp]; rfl)

theorem decodeReplace_ne_nil {bs : List Byte} (h : bs ≠ []) : decodeReplace bs ≠ [] := by
  obtain ⟨x, xs, hx⟩ := List.exists_cons_of_ne_nil (pieces_ne_nil h)
  cases x <;> simp [decodeReplace, hx, Piece.replace]

theorem decodeEscape_ne_nil {bs : List Byte} (h : bs ≠ []) : decodeEscape bs ≠ [] := by
  obtain ⟨x, xs, hx⟩ := List.exists_cons_of_ne_nil (pieces_ne_nil h)
  cases x with
  | point c => simp [decodeEscape, hx, Piece.escape]
  | invalid ps =>
    have hps : ps ≠ [] := @ne_nil_of_mem_run [] bs ps (by rw [← pieces, hx]; simp)
    simp [decodeEscape, hx, Piece.escape, hps]

/-- NUL-free bytes decode to NUL-free text. -/
theorem ne_nul_of_mem_pieces {bs : List Byte} (h : 0 ∉ bs) {x : Piece} (hx : x ∈ pieces bs)
    {c : CodePoint} (hc : x = .point c) : c ≠ 0 := by
  subst hc
  rintro rfl
  exact h (mem_of_mem_pieces hx (by decide))

theorem nul_notMem_decodeReplace {bs : List Byte} (h : 0 ∉ bs) : 0 ∉ decodeReplace bs := by
  intro hn
  obtain ⟨x, hx, hc⟩ := List.mem_flatMap.1 hn
  cases x with
  | point c => exact ne_nul_of_mem_pieces h hx rfl (List.mem_singleton.1 hc).symm
  | invalid ps => exact absurd (List.mem_singleton.1 hc) (by decide)

theorem nul_notMem_decodeEscape {bs : List Byte} (h : 0 ∉ bs) : 0 ∉ decodeEscape bs := by
  intro hn
  obtain ⟨x, hx, hc⟩ := List.mem_flatMap.1 hn
  cases x with
  | point c => exact ne_nul_of_mem_pieces h hx rfl (List.mem_singleton.1 hc).symm
  | invalid ps =>
    obtain ⟨b, -, hb⟩ := List.mem_map.1 hc
    exact absurd (congrArg Fin.val hb) (by simp [escapeByte])

theorem decodeReplace_append_ascii (a : List Byte) {b : Byte} (hb : b.val < 0x80) (bs : List Byte) :
    decodeReplace (a ++ b :: bs) = decodeReplace a ++ ⟨b.val, byte_lt b⟩ :: decodeReplace bs := by
  simp [decodeReplace, pieces_append_ascii a hb, Piece.replace]

theorem decodeReplace_ascii {bs : List Byte} (h : ∀ b ∈ bs, b.val < 0x80) :
    decodeReplace bs = bs.map fun b => ⟨b.val, byte_lt b⟩ := by
  induction bs with
  | nil => rfl
  | cons b bs ih =>
    obtain ⟨hb, hbs⟩ := List.forall_mem_cons.1 h
    have hstep := decodeReplace_append_ascii [] hb bs
    rw [List.nil_append] at hstep
    rw [hstep, ih hbs]
    rfl

theorem decodeEscape_append_ascii (a : List Byte) {b : Byte} (hb : b.val < 0x80) (bs : List Byte) :
    decodeEscape (a ++ b :: bs) = decodeEscape a ++ ⟨b.val, byte_lt b⟩ :: decodeEscape bs := by
  simp [decodeEscape, pieces_append_ascii a hb, Piece.escape]

@[simp] theorem decodeReplace_nil : decodeReplace [] = [] := rfl

@[simp] theorem decodeEscape_nil : decodeEscape [] = [] := rfl

end Utf8

end Py
